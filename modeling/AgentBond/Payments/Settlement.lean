import AgentBond.Foundation.Lease
import AgentBond.Foundation.Table
import AgentBond.Payments.Models

/-! # Settlement stores

Two stores remember which transactions are being settled and which are: one in
memory, which forgets entries by age and when it is full, and one in the
database, which refuses what its columns do not take.
-/

namespace AgentBond.Payments

open Foundation

/-- A store of settlements: asking for a transaction, settling it and giving it up. Each call is
atomic and happens at one time; tokens are drawn by the caller of `begin`. -/
structure SettlementStore where
  Row : Type
  begin : ℕ → LeaseToken → Text → SettlementBinding → Table Text Row →
    Table Text Row × Paid BeginOutcome
  complete : ℕ → Text → SettlementBinding → LeaseToken → PaidDemoResult → Table Text Row →
    Table Text Row × Paid Unit
  fail : ℕ → Text → SettlementBinding → LeaseToken → Table Text Row → Table Text Row × Paid Unit

namespace Memory

def maxEntries : ℕ := 512
def entryTtl : ℕ := seconds 120
def failRetry : ℕ := seconds 2
def leaseTtl : ℕ := seconds 30

inductive State
  | settling (binding : SettlementBinding) (lease : LeaseToken) (started : ℕ)
  | settled (binding : SettlementBinding) (result : PaidDemoResult) (completed : ℕ)
  | failed (binding : SettlementBinding) (failedAt : ℕ)

abbrev Entries := Table Text State

/-- Since when the entry is what it is. -/
def State.since : State → ℕ
  | .settling _ _ started => started
  | .settled _ _ completed => completed
  | .failed _ failedAt => failedAt

def State.isSettling : State → Bool
  | .settling .. => true
  | _ => false

/-- Forget what is older than the time to live. -/
def evict (now : ℕ) (m : Entries) : Entries :=
  m.deleteWhere fun _ s => decide (entryTtl < now - s.since)

/-- The finished entries with their ages, in the order of the map. -/
def finished (now : ℕ) (m : Entries) : List (Text × ℕ) :=
  (m.selectWhere fun _ s => !s.isSettling).map fun e => (e.1, now - e.2.since)

/-- The last of the oldest. -/
def oldest : List (Text × ℕ) → Option (Text × ℕ)
  | [] => none
  | e :: entries =>
    match oldest entries with
    | some best => if best.2 < e.2 then some e else some best
    | none => some e

def evictOneTargeted (now : ℕ) (m : Entries) : Entries :=
  match oldest (finished now m) with
  | some e => m.deleteWhere fun k _ => k = e.1
  | none => m

/-- Room for one more entry. -/
def makeRoom (now : ℕ) (m : Entries) : Entries :=
  if maxEntries ≤ m.rows.length then evictOneTargeted now m else m

def begin (now : ℕ) (lease : LeaseToken) (digest : Text) (binding : SettlementBinding)
    (entries : Entries) : Entries × Paid BeginOutcome :=
  let m := evict now entries
  match m.get digest with
  | some (.settled existing result _) =>
    if existing ≠ binding then (m, .error .bindingMismatch) else (m, .ok (.cached result))
  | some (.settling existing _ started) =>
    if existing ≠ binding then (m, .error .bindingMismatch)
    else if leaseTtl < now - started then
      (m.put digest (.settling binding lease now), .ok (.recoveredStale lease))
    else (m, .error .settlementInProgress)
  | some (.failed existing failedAt) =>
    if existing ≠ binding then (m, .error .bindingMismatch)
    else if now - failedAt < failRetry then (m, .error .settlementInProgress)
    else (m.put digest (.settling binding lease now), .ok (.acquired lease))
  | none => ((makeRoom now m).put digest (.settling binding lease now), .ok (.acquired lease))

def complete (now : ℕ) (digest : Text) (binding : SettlementBinding) (lease : LeaseToken)
    (result : PaidDemoResult) (m : Entries) : Entries × Paid Unit :=
  match m.get digest with
  | some (.settling existing held _) =>
    if existing = binding ∧ held = lease then (m.put digest (.settled binding result now), .ok ())
    else (m, .error .leaseMismatch)
  | _ => (m, .error .invalidChallenge)

def fail (now : ℕ) (digest : Text) (binding : SettlementBinding) (lease : LeaseToken)
    (m : Entries) : Entries × Paid Unit :=
  match m.get digest with
  | some (.settling existing held _) =>
    if existing = binding ∧ held = lease then (m.put digest (.failed binding now), .ok ())
    else (m, .error .leaseMismatch)
  | _ => (m, .ok ())

end Memory

def memoryStore : SettlementStore where
  Row := Memory.State
  begin := Memory.begin
  complete := Memory.complete
  fail := Memory.fail

namespace Pg

def leaseSecs : ℕ := seconds 30
def failRetrySecs : ℕ := seconds 2
def maxResultJson : ℕ := 16384

inductive SettlementState
  | settling | settled | failed
  deriving DecidableEq

/-- A row of `x402_settlements`. That a settled row has its result is a constraint of the table;
the other columns are filled by the store. -/
structure SettlementRow where
  state : SettlementState
  leaseToken : Option LeaseToken
  leaseExpiresAt : Option ℕ
  binding : SettlementBinding
  resultBody : Option Json
  paymentResponseHeader : Option Text
  failedAt : Option ℕ
  settling_fields : state = .settling → leaseToken.isSome = true ∧
    ∃ started, leaseExpiresAt = some (started + leaseSecs)
  settled_fields : state = .settled → resultBody.isSome = true ∧ paymentResponseHeader.isSome = true
  failed_fields : state = .failed → failedAt.isSome = true

abbrev Rows := Table Text SettlementRow

def validateDigest (txDigest : Text) : Paid Unit :=
  if txDigest.utf8Len ≠ 64 ∨ txDigest.all Text.isHexDigit = false then
    .error (.internal "invalid tx digest") else .ok ()

def validateBinding (binding : SettlementBinding) : Paid Unit :=
  if binding.inputDigest.utf8Len ≠ 64 ∨ binding.inputDigest.all Text.isHexDigit = false then
    .error (.internal "invalid input digest")
  else if binding.challengeMemo.utf8Len ≠ 32 ∨
      binding.challengeMemo.all Text.isHexDigit = false then
    .error (.internal "invalid challenge memo")
  else .ok ()

/-- A text a column of bounded length takes. -/
def fits (low high : ℕ) (text : Text) : Bool :=
  decide (low ≤ text.length ∧ text.length ≤ high) && !Json.nul text

def lowerHex (n : ℕ) (text : Text) : Bool :=
  decide (text.length = n) && text.all Text.isLowerHexDigit

/-- The columns take the key and the binding of a row. -/
def checkRow (txDigest : Text) (binding : SettlementBinding) : Bool :=
  lowerHex 64 txDigest && fits 1 64 binding.serviceId && fits 1 512 binding.resourceUrl &&
    lowerHex 64 binding.inputDigest && lowerHex 32 binding.challengeMemo

/-- A row that is being settled. -/
def settlingRow (now : ℕ) (lease : LeaseToken) (binding : SettlementBinding) : SettlementRow where
  state := .settling
  leaseToken := some lease
  leaseExpiresAt := some (now + leaseSecs)
  binding := binding
  resultBody := none
  paymentResponseHeader := none
  failedAt := none
  settling_fields := fun _ => ⟨rfl, now, rfl⟩
  settled_fields := fun h => by cases h
  failed_fields := fun h => by cases h

/-- Whether the row may be given to another holder. -/
def takeable (now : ℕ) (row : SettlementRow) : Bool :=
  match row.state with
  | .settled => false
  | .settling => (row.leaseExpiresAt.map fun t => decide (t < now)).getD true
  | .failed => (row.failedAt.map fun t => decide (t + failRetrySecs ≤ now)).getD true

def begin (now : ℕ) (lease : LeaseToken) (txDigest : Text) (binding : SettlementBinding)
    (rows : Rows) : Rows × Paid BeginOutcome :=
  match validateDigest txDigest with
  | .error e => (rows, .error e)
  | .ok () =>
    match validateBinding binding with
    | .error e => (rows, .error e)
    | .ok () =>
      match rows.get txDigest with
      | some row =>
        if row.binding ≠ binding then (rows, .error .bindingMismatch)
        else if row.state = .settled then
          match row.resultBody, row.paymentResponseHeader with
          | some body, some header =>
            (rows, .ok (.cached { body, paymentResponseHeader := header }))
          | none, _ => (rows, .error (.internal "missing body"))
          | _, none => (rows, .error (.internal "missing header"))
        else if takeable now row then
          -- The update keeps the result columns, which only a settled row has.
          (rows.put txDigest
            { settlingRow now lease binding with
              resultBody := row.resultBody, paymentResponseHeader := row.paymentResponseHeader
              settling_fields := fun _ => ⟨rfl, now, rfl⟩
              settled_fields := fun h => by cases h
              failed_fields := fun h => by cases h },
            .ok (if row.state = .settling then .recoveredStale lease else .acquired lease))
        else (rows, .error .settlementInProgress)
      | none =>
        if checkRow txDigest binding then
          (rows.put txDigest (settlingRow now lease binding), .ok (.acquired lease))
        else (rows, .error databaseError)

/-- The insertion after a look at the table that found no row. Where another call has inserted one
since, it does nothing, and `begin` starts again. -/
def insertRow (now : ℕ) (lease : LeaseToken) (txDigest : Text) (binding : SettlementBinding)
    (rows : Rows) : Rows × Option (Paid BeginOutcome) :=
  if checkRow txDigest binding then
    match rows.get txDigest with
    | some _ => (rows, none)
    | none => (rows.put txDigest (settlingRow now lease binding), some (.ok (.acquired lease)))
  else (rows, some (.error databaseError))

/-- The row is being settled by this holder under this binding. -/
def held (binding : SettlementBinding) (lease : LeaseToken) (row : SettlementRow) : Bool :=
  decide (row.state = .settling ∧ row.leaseToken = some lease ∧ row.binding = binding)

/-- The column takes the value, and the header. -/
def storable (result : PaidDemoResult) : Bool :=
  !result.body.hasNul && fits 0 8192 result.paymentResponseHeader

def complete (_now : ℕ) (txDigest : Text) (binding : SettlementBinding) (lease : LeaseToken)
    (result : PaidDemoResult) (rows : Rows) : Rows × Paid Unit :=
  if maxResultJson < Text.utf8Len result.body.write ∨
      8192 < Text.utf8Len result.paymentResponseHeader then
    (rows, .error (.internal "result too large"))
  else if storable result then
    match rows.get txDigest with
    | some row =>
      if held binding lease row then
        (rows.put txDigest
          { state := .settled, leaseToken := none, leaseExpiresAt := none, binding := row.binding
            resultBody := some result.body
            paymentResponseHeader := some result.paymentResponseHeader, failedAt := row.failedAt
            settling_fields := fun h => by cases h
            settled_fields := fun _ => ⟨rfl, rfl⟩
            failed_fields := fun h => by cases h },
          .ok ())
      else (rows, .error .leaseMismatch)
    | none => (rows, .error .leaseMismatch)
  else (rows, .error databaseError)

def fail (now : ℕ) (txDigest : Text) (binding : SettlementBinding) (lease : LeaseToken)
    (rows : Rows) : Rows × Paid Unit :=
  match rows.get txDigest with
  | some row =>
    if held binding lease row then
      (rows.put txDigest
        { state := .failed, leaseToken := none, leaseExpiresAt := none, binding := row.binding
          resultBody := row.resultBody, paymentResponseHeader := row.paymentResponseHeader
          failedAt := some now
          settling_fields := fun h => by cases h
          settled_fields := fun h => by cases h
          failed_fields := fun _ => rfl },
        .ok ())
    else (rows, .error .leaseMismatch)
  | none => (rows, .error .leaseMismatch)

end Pg

def pgStore : SettlementStore where
  Row := Pg.SettlementRow
  begin := Pg.begin
  complete := Pg.complete
  fail := Pg.fail

end AgentBond.Payments
