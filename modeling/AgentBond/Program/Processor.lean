import AgentBond.Program.Bond
import AgentBond.Program.Job
import AgentBond.Program.Settlement

/-! # The processor

Instruction data selects the processor of its instruction.
-/

namespace AgentBond

variable (P : Platform) (ctx : Ctx) (L : Ledger)

def processInstruction : Instruction → Processed
  | .initializeConfig payload => initializeConfig P ctx L payload
  | .setPaused paused => setPaused P ctx L paused
  | .registerProvider => registerProvider P ctx L
  | .addExecutionKey key => addExecutionKey P ctx L key
  | .revokeExecutionKey key => revokeExecutionKey P ctx L key
  | .depositBond amount => depositBond P ctx L amount
  | .withdrawBond amount => withdrawBond P ctx L amount
  | .createJob payload => createJob P ctx L payload
  | .fundJob => fundJob P ctx L
  | .acceptJob => acceptJob P ctx L
  | .submitReceipt receipt => submitReceipt P ctx L receipt
  | .acceptWork => acceptWork P ctx L
  | .challengeWork reasonHash => challengeWork P ctx L reasonHash
  | .resolveTimeoutSettle => resolveTimeoutSettle P ctx L
  | .resolveTimeoutRefund => resolveTimeoutRefund P ctx L
  | .expireUnfunded => expireUnfunded P ctx L
  | .expireUnaccepted => expireUnaccepted P ctx L
  | .slashBond => slashBond P ctx L
  | .closeJob => closeJob P ctx L

def process (data : List UInt8) : Processed := do
  let instruction ← orFail (Instruction.parse data)
  processInstruction P ctx L instruction

variable {P} {ctx} {L}

/-- Data that is an instruction runs its processor. -/
theorem process_of_parse {data : List UInt8} {ix : Instruction}
    (h : Instruction.parse data = .ok ix) :
    process P ctx L data = processInstruction P ctx L ix := by
  simp only [process, h, orFail, Except.mapError, bind, Except.bind]

end AgentBond
