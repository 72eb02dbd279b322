import AgentBond.Types.Receipt

/-! # Instructions

The nineteen instructions of the program and their data: one byte for the kind
and a payload of the length that kind expects.
-/

namespace AgentBond

open Foundation

inductive InstructionKind
  | initializeConfig | registerProvider | addExecutionKey | revokeExecutionKey | depositBond
  | withdrawBond | createJob | fundJob | acceptJob | submitReceipt | acceptWork | challengeWork
  | resolveTimeoutSettle | resolveTimeoutRefund | expireUnfunded | expireUnaccepted | slashBond
  | closeJob | setPaused
  deriving DecidableEq, Repr

namespace InstructionKind

def fromU8 (value : UInt8) : Except ProtocolError InstructionKind :=
  match value.toNat with
  | 0 => .ok initializeConfig
  | 1 => .ok registerProvider
  | 2 => .ok addExecutionKey
  | 3 => .ok revokeExecutionKey
  | 4 => .ok depositBond
  | 5 => .ok withdrawBond
  | 6 => .ok createJob
  | 7 => .ok fundJob
  | 8 => .ok acceptJob
  | 9 => .ok submitReceipt
  | 10 => .ok acceptWork
  | 11 => .ok challengeWork
  | 12 => .ok resolveTimeoutSettle
  | 13 => .ok resolveTimeoutRefund
  | 14 => .ok expireUnfunded
  | 15 => .ok expireUnaccepted
  | 16 => .ok slashBond
  | 17 => .ok closeJob
  | 18 => .ok setPaused
  | _ => .error .unknownInstruction

def asU8 : InstructionKind → UInt8
  | initializeConfig => 0
  | registerProvider => 1
  | addExecutionKey => 2
  | revokeExecutionKey => 3
  | depositBond => 4
  | withdrawBond => 5
  | createJob => 6
  | fundJob => 7
  | acceptJob => 8
  | submitReceipt => 9
  | acceptWork => 10
  | challengeWork => 11
  | resolveTimeoutSettle => 12
  | resolveTimeoutRefund => 13
  | expireUnfunded => 14
  | expireUnaccepted => 15
  | slashBond => 16
  | closeJob => 17
  | setPaused => 18

theorem fromU8_asU8 (kind : InstructionKind) : fromU8 kind.asU8 = .ok kind := by
  cases kind <;> rfl

def expectedPayloadLen : InstructionKind → ℕ
  | initializeConfig => 113
  | setPaused => 1
  | addExecutionKey | revokeExecutionKey | challengeWork => 32
  | depositBond | withdrawBond => 8
  | createJob => 80
  | submitReceipt => receiptEncodedLen
  | _ => 0

end InstructionKind

structure InitializeConfigPayload where
  genesisHash : Pubkey
  allowedMint : Pubkey
  tokenProgram : Pubkey
  mintDecimals : UInt8
  minProviderBond : UInt64
  challengeDurationSeconds : Int64
  deriving DecidableEq

structure CreateJobPayload where
  jobNonce : UInt64
  amount : UInt64
  requestHash : Pubkey
  fundDeadline : Int64
  acceptDeadline : Int64
  workDeadline : Int64
  autoSettleDeadline : Int64
  deriving DecidableEq

inductive Instruction
  | initializeConfig (payload : InitializeConfigPayload)
  | registerProvider
  | addExecutionKey (key : Pubkey)
  | revokeExecutionKey (key : Pubkey)
  | depositBond (amount : UInt64)
  | withdrawBond (amount : UInt64)
  | createJob (payload : CreateJobPayload)
  | fundJob
  | acceptJob
  | submitReceipt (receipt : AgentBondWorkReceiptV1)
  | acceptWork
  | challengeWork (reasonHash : Pubkey)
  | resolveTimeoutSettle
  | resolveTimeoutRefund
  | expireUnfunded
  | expireUnaccepted
  | slashBond
  | closeJob
  | setPaused (paused : Bool)
  deriving DecidableEq

namespace Instruction

def field (payload : List UInt8) (offset n : ℕ) : Except ProtocolError (Bytes n) :=
  okOr (slice payload offset n) .invalidInstructionData

/-- Read the payload of the given kind. -/
def parsePayload (kind : InstructionKind) (payload : List UInt8) :
    Except ProtocolError Instruction :=
  match kind with
  | .initializeConfig => do
    let genesisHash ← field payload 0 32
    let allowedMint ← field payload 32 32
    let tokenProgram ← field payload 64 32
    let minProviderBond ← field payload 97 8
    let challengeDurationSeconds ← field payload 105 8
    .ok (.initializeConfig
      { genesisHash, allowedMint, tokenProgram, mintDecimals := byteAt payload 96,
        minProviderBond := u64OfBytes minProviderBond,
        challengeDurationSeconds := i64OfBytes challengeDurationSeconds })
  | .registerProvider => .ok .registerProvider
  | .addExecutionKey => do
    let key ← field payload 0 32
    .ok (.addExecutionKey key)
  | .revokeExecutionKey => do
    let key ← field payload 0 32
    .ok (.revokeExecutionKey key)
  | .depositBond => do
    let amount ← field payload 0 8
    .ok (.depositBond (u64OfBytes amount))
  | .withdrawBond => do
    let amount ← field payload 0 8
    .ok (.withdrawBond (u64OfBytes amount))
  | .createJob => do
    let jobNonce ← field payload 0 8
    let amount ← field payload 8 8
    let requestHash ← field payload 16 32
    let fundDeadline ← field payload 48 8
    let acceptDeadline ← field payload 56 8
    let workDeadline ← field payload 64 8
    let autoSettleDeadline ← field payload 72 8
    .ok (.createJob
      { jobNonce := u64OfBytes jobNonce, amount := u64OfBytes amount, requestHash,
        fundDeadline := i64OfBytes fundDeadline, acceptDeadline := i64OfBytes acceptDeadline,
        workDeadline := i64OfBytes workDeadline,
        autoSettleDeadline := i64OfBytes autoSettleDeadline })
  | .fundJob => .ok .fundJob
  | .acceptJob => .ok .acceptJob
  | .submitReceipt => do
    let receipt ← AgentBondWorkReceiptV1.decode payload
    .ok (.submitReceipt receipt)
  | .acceptWork => .ok .acceptWork
  | .challengeWork => do
    let reasonHash ← field payload 0 32
    .ok (.challengeWork reasonHash)
  | .resolveTimeoutSettle => .ok .resolveTimeoutSettle
  | .resolveTimeoutRefund => .ok .resolveTimeoutRefund
  | .expireUnfunded => .ok .expireUnfunded
  | .expireUnaccepted => .ok .expireUnaccepted
  | .slashBond => .ok .slashBond
  | .closeJob => .ok .closeJob
  | .setPaused => do
    let paused ← readBool (byteAt payload 0)
    .ok (.setPaused paused)

def parse (data : List UInt8) : Except ProtocolError Instruction :=
  match data with
  | [] => .error .emptyInstructionData
  | discriminator :: payload => do
    let kind ← InstructionKind.fromU8 discriminator
    ensure (payload.length = kind.expectedPayloadLen) .invalidInstructionLength
    parsePayload kind payload

def kind : Instruction → InstructionKind
  | .initializeConfig _ => .initializeConfig
  | .registerProvider => .registerProvider
  | .addExecutionKey _ => .addExecutionKey
  | .revokeExecutionKey _ => .revokeExecutionKey
  | .depositBond _ => .depositBond
  | .withdrawBond _ => .withdrawBond
  | .createJob _ => .createJob
  | .fundJob => .fundJob
  | .acceptJob => .acceptJob
  | .submitReceipt _ => .submitReceipt
  | .acceptWork => .acceptWork
  | .challengeWork _ => .challengeWork
  | .resolveTimeoutSettle => .resolveTimeoutSettle
  | .resolveTimeoutRefund => .resolveTimeoutRefund
  | .expireUnfunded => .expireUnfunded
  | .expireUnaccepted => .expireUnaccepted
  | .slashBond => .slashBond
  | .closeJob => .closeJob
  | .setPaused _ => .setPaused

/-- The payload a client sends. -/
def payload : Instruction → List UInt8
  | .initializeConfig p =>
    [p.genesisHash.toList, p.allowedMint.toList, p.tokenProgram.toList, [p.mintDecimals],
      (u64Bytes p.minProviderBond).toList, (i64Bytes p.challengeDurationSeconds).toList].flatten
  | .addExecutionKey key | .revokeExecutionKey key => key.toList
  | .depositBond amount | .withdrawBond amount => (u64Bytes amount).toList
  | .createJob p =>
    [(u64Bytes p.jobNonce).toList, (u64Bytes p.amount).toList, p.requestHash.toList,
      (i64Bytes p.fundDeadline).toList, (i64Bytes p.acceptDeadline).toList,
      (i64Bytes p.workDeadline).toList, (i64Bytes p.autoSettleDeadline).toList].flatten
  | .submitReceipt receipt => receipt.bytes
  | .challengeWork reasonHash => reasonHash.toList
  | .setPaused paused => [writeBool paused]
  | _ => []

/-- The instruction data a client sends; only a valid receipt is sent. -/
def encode (instruction : Instruction) : Except ProtocolError (List UInt8) := do
  match instruction with
  | .submitReceipt receipt => receipt.validate
  | _ => .ok ()
  .ok (instruction.kind.asU8 :: instruction.payload)

theorem length_payload (instruction : Instruction) :
    instruction.payload.length = instruction.kind.expectedPayloadLen := by
  cases instruction <;>
    simp [payload, kind, InstructionKind.expectedPayloadLen, AgentBondWorkReceiptV1.length_bytes]

theorem parsePayload_payload (instruction : Instruction)
    (h : ∀ r, instruction = .submitReceipt r → r.createdAt ≤ r.expiresAt) :
    parsePayload instruction.kind instruction.payload = .ok instruction := by
  cases instruction with
  | submitReceipt receipt =>
    have hd := AgentBondWorkReceiptV1.decode_of_encode
      (AgentBondWorkReceiptV1.encode_eq_ok.mpr ⟨h _ rfl, rfl⟩)
    simp [parsePayload, kind, payload, hd]
  | setPaused paused => cases paused <;> rfl
  | _ =>
    simp [parsePayload, kind, payload, field, slice_skip, slice_cons, slice_field, slice_last,
      byteAt_skip]

/-- The program reads what a client sends. -/
theorem parse_of_encode {instruction : Instruction} {data : List UInt8}
    (h : instruction.encode = .ok data) : parse data = .ok instruction := by
  have hr : ∀ r, instruction = .submitReceipt r → r.createdAt ≤ r.expiresAt := by
    rintro r rfl
    simp only [encode, AgentBondWorkReceiptV1.validate, ensure_bind_eq_ok] at h
    exact h.1
  have hdata : instruction.kind.asU8 :: instruction.payload = data := by
    cases instruction <;>
      simp_all [encode, AgentBondWorkReceiptV1.validate, ensure, bind, Except.bind]
  subst hdata
  rw [parse, bind_eq_ok]
  refine ⟨_, InstructionKind.fromU8_asU8 _, ?_⟩
  rw [ensure_bind_eq_ok]
  exact ⟨length_payload _, parsePayload_payload _ hr⟩

end Instruction

end AgentBond
