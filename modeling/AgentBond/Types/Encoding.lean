import AgentBond.Types.Canonical
import AgentBond.Types.Instruction

/-! # Instruction data

The encoders a client calls, one for each payload and one for the instructions
without any, and the parser of the program. Each instruction has exactly one
byte string that is parsed to it.
-/

namespace AgentBond

open Foundation

def encodeInitializeConfig (payload : InitializeConfigPayload) : List UInt8 :=
  InstructionKind.initializeConfig.asU8 ::
    [payload.genesisHash.toList, payload.allowedMint.toList, payload.tokenProgram.toList,
      [payload.mintDecimals], (u64Bytes payload.minProviderBond).toList,
      (i64Bytes payload.challengeDurationSeconds).toList].flatten

def encodeSetPaused (paused : Bool) : List UInt8 :=
  [InstructionKind.setPaused.asU8, writeBool paused]

def encodeAddExecutionKey (key : Pubkey) : List UInt8 :=
  InstructionKind.addExecutionKey.asU8 :: key.toList

def encodeRevokeExecutionKey (key : Pubkey) : List UInt8 :=
  InstructionKind.revokeExecutionKey.asU8 :: key.toList

def encodeDepositBond (amount : UInt64) : List UInt8 :=
  InstructionKind.depositBond.asU8 :: (u64Bytes amount).toList

def encodeWithdrawBond (amount : UInt64) : List UInt8 :=
  InstructionKind.withdrawBond.asU8 :: (u64Bytes amount).toList

def encodeCreateJob (payload : CreateJobPayload) : List UInt8 :=
  InstructionKind.createJob.asU8 ::
    [(u64Bytes payload.jobNonce).toList, (u64Bytes payload.amount).toList,
      payload.requestHash.toList, (i64Bytes payload.fundDeadline).toList,
      (i64Bytes payload.acceptDeadline).toList, (i64Bytes payload.workDeadline).toList,
      (i64Bytes payload.autoSettleDeadline).toList].flatten

def encodeSubmitReceipt (receipt : AgentBondWorkReceiptV1) :
    Except ProtocolError (List UInt8) := do
  let encoded ← receipt.encode
  .ok (InstructionKind.submitReceipt.asU8 :: encoded)

def encodeChallengeWork (reasonHash : Pubkey) : List UInt8 :=
  InstructionKind.challengeWork.asU8 :: reasonHash.toList

/-- The data of an instruction without a payload. -/
def encodeEmpty (kind : InstructionKind) : Except ProtocolError (List UInt8) := do
  ensure (kind.expectedPayloadLen = 0) .invalidInstructionData
  .ok [kind.asU8]

namespace Instruction

/-- The encoder of the instruction's kind. -/
def encodeData : Instruction → Except ProtocolError (List UInt8)
  | initializeConfig payload => .ok (encodeInitializeConfig payload)
  | setPaused paused => .ok (encodeSetPaused paused)
  | addExecutionKey key => .ok (encodeAddExecutionKey key)
  | revokeExecutionKey key => .ok (encodeRevokeExecutionKey key)
  | depositBond amount => .ok (encodeDepositBond amount)
  | withdrawBond amount => .ok (encodeWithdrawBond amount)
  | createJob payload => .ok (encodeCreateJob payload)
  | submitReceipt receipt => encodeSubmitReceipt receipt
  | challengeWork reasonHash => .ok (encodeChallengeWork reasonHash)
  | ix => encodeEmpty ix.kind

/-- Only a receipt can be refused. -/
theorem encodeData_eq (ix : Instruction) : ix.encodeData = ix.encode := by
  cases ix with
  | submitReceipt receipt =>
    simp only [encodeData, encodeSubmitReceipt, encode, AgentBondWorkReceiptV1.encode]
    cases receipt.validate <;> rfl
  | _ => rfl

variable {data payload : List UInt8} {offset n : ℕ}

theorem drop_of_field {v : Bytes n} (h : field payload offset n = .ok v) :
    payload.drop offset = v.toList ++ payload.drop (offset + n) :=
  drop_of_slice (okOr_eq_ok.mp h)

end Instruction

theorem AgentBondWorkReceiptV1.drop_of_field {data : List UInt8} {offset n : ℕ} {v : Bytes n}
    (h : field data offset n = .ok v) :
    data.drop offset = v.toList ++ data.drop (offset + n) :=
  drop_of_slice (okOr_eq_ok.mp h)

theorem AgentBondWorkReceiptV1.encode_of_decode {data : List UInt8} {r : AgentBondWorkReceiptV1}
    (h : decode data = .ok r) : r.encode = .ok data := by
  simp only [decode, validate, bind_eq_ok, ensure_eq_ok, exists_const, Except.ok.injEq] at h
  obtain ⟨hl, hdomain, hversion, programId, h₁, genesis, h₂, job, h₃, buyer, h₄, provider, h₅,
    request, h₆, result, h₇, artifact, h₈, software, h₉, nonce, h₁₀, created, h₁₁, expires, h₁₂,
    hvalid, rfl⟩ := h
  have hend : data.drop 334 = [] := List.drop_eq_nil_of_le (Nat.le_of_eq hl)
  have hdata : data = _ := drop_of_slice hdomain
  rw [drop_of_slice hversion, drop_of_field h₁, drop_of_field h₂, drop_of_field h₃,
    drop_of_field h₄, drop_of_field h₅, drop_of_field h₆, drop_of_field h₇, drop_of_field h₈,
    drop_of_field h₉, drop_of_field h₁₀, drop_of_field h₁₁, drop_of_field h₁₂, hend] at hdata
  rw [encode_eq_ok]
  refine ⟨hvalid, Eq.trans ?_ hdata.symm⟩
  simp [bytes]

namespace Instruction

variable {data payload : List UInt8}

theorem asU8_of_fromU8 {b : UInt8} {kind : InstructionKind}
    (h : InstructionKind.fromU8 b = .ok kind) : kind.asU8 = b := by
  apply UInt8.toNat_inj.mp
  unfold InstructionKind.fromU8 at h
  split at h <;> cases h <;> exact Eq.symm ‹_›

theorem toList_of_field {n : ℕ} {v : Bytes n} (hl : payload.length = n)
    (h : field payload 0 n = .ok v) : v.toList = payload := by
  have hdata : payload = v.toList ++ payload.drop (0 + n) := drop_of_field h
  rw [List.drop_eq_nil_of_le (by omega), List.append_nil] at hdata
  exact hdata.symm

theorem payload_of_parsePayload {kind : InstructionKind} {ix : Instruction}
    (hl : payload.length = kind.expectedPayloadLen) (h : parsePayload kind payload = .ok ix) :
    ix.kind = kind ∧ ix.payload = payload := by
  have hend : payload.drop kind.expectedPayloadLen = [] :=
    List.drop_eq_nil_of_le (Nat.le_of_eq hl)
  cases kind with
  | initializeConfig =>
    simp only [parsePayload, bind_eq_ok, Except.ok.injEq] at h
    obtain ⟨genesis, h₁, mint, h₂, token, h₃, bond, h₄, duration, h₅, rfl⟩ := h
    have hdata : payload = _ := drop_of_field h₁
    rw [drop_of_field h₂, drop_of_field h₃, drop_of_byteAt 96 (by rw [hl]; decide),
      drop_of_field h₄, drop_of_field h₅, show payload.drop (105 + 8) = [] from hend] at hdata
    refine ⟨rfl, Eq.trans ?_ hdata.symm⟩
    simp [Instruction.payload]
  | createJob =>
    simp only [parsePayload, bind_eq_ok, Except.ok.injEq] at h
    obtain ⟨nonce, h₁, amount, h₂, request, h₃, fund, h₄, accept, h₅, work, h₆, settle, h₇, rfl⟩ :=
      h
    have hdata : payload = _ := drop_of_field h₁
    rw [drop_of_field h₂, drop_of_field h₃, drop_of_field h₄, drop_of_field h₅, drop_of_field h₆,
      drop_of_field h₇, show payload.drop (72 + 8) = [] from hend] at hdata
    refine ⟨rfl, Eq.trans ?_ hdata.symm⟩
    simp [Instruction.payload]
  | submitReceipt =>
    simp only [parsePayload, bind_eq_ok, Except.ok.injEq] at h
    obtain ⟨receipt, hr, rfl⟩ := h
    have hencode := AgentBondWorkReceiptV1.encode_of_decode hr
    exact ⟨rfl, (AgentBondWorkReceiptV1.encode_eq_ok.mp hencode).2⟩
  | setPaused =>
    simp only [parsePayload, bind_eq_ok, Except.ok.injEq] at h
    obtain ⟨paused, hp, rfl⟩ := h
    have hdata : payload = _ := drop_of_byteAt 0 (by rw [hl]; decide)
    rw [show payload.drop (0 + 1) = [] from hend] at hdata
    refine ⟨rfl, Eq.trans ?_ hdata.symm⟩
    simp [Instruction.payload, writeBool_of_readBool hp]
  | addExecutionKey | revokeExecutionKey | challengeWork | depositBond | withdrawBond =>
    simp only [parsePayload, bind_eq_ok, Except.ok.injEq] at h
    obtain ⟨v, hv, rfl⟩ := h
    refine ⟨rfl, Eq.trans ?_ (toList_of_field (by exact hl) hv)⟩
    simp [Instruction.payload]
  | _ =>
    obtain rfl := Except.ok.inj h
    exact ⟨rfl, (List.eq_nil_of_length_eq_zero hl).symm⟩

theorem createdAt_le_of_parsePayload {kind : InstructionKind} {r : AgentBondWorkReceiptV1}
    (h : parsePayload kind payload = .ok (.submitReceipt r)) : r.createdAt ≤ r.expiresAt := by
  cases kind with
  | submitReceipt =>
    simp only [parsePayload, bind_eq_ok, Except.ok.injEq] at h
    obtain ⟨receipt, hr, he⟩ := h
    cases he
    exact (AgentBondWorkReceiptV1.encode_eq_ok.mp (AgentBondWorkReceiptV1.encode_of_decode hr)).1
  | _ => simp [parsePayload] at h

theorem encode_eq_ok {ix : Instruction} :
    ix.encode = .ok data ↔ (∀ r, ix = submitReceipt r → r.createdAt ≤ r.expiresAt) ∧
      ix.kind.asU8 :: ix.payload = data := by
  cases ix with
  | submitReceipt r =>
    simp only [encode, AgentBondWorkReceiptV1.validate, ensure_bind_eq_ok, Except.ok.injEq]
    exact and_congr_left fun _ => ⟨fun h r' he => by cases he; exact h, fun h => h r rfl⟩
  | _ => simp [encode, bind, Except.bind]

/-- Each instruction has exactly one byte string the program reads it from, the one a client
sends; only receipts that expire before they are made have none. -/
theorem instruction_codec (ix : Instruction) :
    (∀ data, parse data = .ok ix ↔ ix.encodeData = .ok data) ∧
      ((∃ data, ix.encodeData = .ok data) ↔
        ∀ r, ix = submitReceipt r → r.createdAt ≤ r.expiresAt) := by
  simp only [encodeData_eq]
  constructor
  · intro data
    refine ⟨fun h => ?_, parse_of_encode⟩
    unfold parse at h
    split at h
    · cases h
    · simp only [bind_eq_ok, ensure_eq_ok, exists_const] at h
      obtain ⟨kind, hkind, hl, h⟩ := h
      obtain ⟨hk, hpayload⟩ := payload_of_parsePayload hl h
      rw [encode_eq_ok]
      refine ⟨?_, by rw [hk, hpayload, asU8_of_fromU8 hkind]⟩
      rintro r rfl
      exact createdAt_le_of_parsePayload h
  · simp only [encode_eq_ok]
    constructor
    · rintro ⟨_, h, -⟩
      exact h
    · intro h
      exact ⟨_, h, rfl⟩

end Instruction

end AgentBond
