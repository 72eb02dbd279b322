import AgentBond.Chain.Script
import AgentBond.Sdk.Plan
import AgentBond.Types.Encoding

/-! # Receipt plans

A receipt is submitted in two instructions, the precompile's and the program's.
Both carry the message, and the program reads from them the receipt and the key
the plan was made for.
-/

namespace AgentBond

open Foundation

def validateReceipt (receipt : AgentBondWorkReceiptV1) : Planned Unit := do
  let _ ← ofProtocol receipt.encode
  ensure (¬ receipt.expiresAt < receipt.createdAt)
    (.invalidInput "receipt expires_at before created_at")

def buildEd25519VerifyInstruction (message : List UInt8) (publicKey : Pubkey)
    (signature : Bytes 64) : Planned ChainInstruction := do
  ensure (message.length = receiptEncodedLen)
    (.invalidInput "receipt message must be 334 bytes")
  ensure (publicKey ≠ zeroKey) (.invalidInput "execution public key must be nonzero")
  let publicKeyOffset := 2 + 14
  let signatureOffset := publicKeyOffset + 32
  let messageDataOffset := signatureOffset + 64
  .ok { programId := ed25519ProgramId, accounts := [],
        data := [[1, 0], leBytes 2 signatureOffset, leBytes 2 65535, leBytes 2 publicKeyOffset,
          leBytes 2 65535, leBytes 2 messageDataOffset, leBytes 2 message.length, leBytes 2 65535,
          publicKey.toList, signature.toList, message].flatten }

variable (P : Platform)

def buildSubmitReceiptPlanAt (programId job providerAuthority : Pubkey)
    (receipt : AgentBondWorkReceiptV1) (executionPubkey : Pubkey) (signature : Bytes 64)
    (now : Option Int64) : Planned InstructionPlan := do
  validateReceipt receipt
  ensure (receipt.programId = programId)
    (.invalidInput "receipt program_id does not match requested program")
  ensure (receipt.job = job) (.invalidInput "receipt job does not match supplied job")
  ensure (receipt.provider = providerAuthority)
    (.invalidInput "receipt provider does not match supplied provider")
  ensure (executionPubkey ≠ zeroKey) (.invalidInput "execution public key must be nonzero")
  ensure (now.any (fun ts => receipt.expiresAt < ts) = false) (.invalidInput "receipt is expired")
  let encoded ← ofProtocol receipt.encode
  ensure (encoded.length = receiptEncodedLen)
    (.invalidInput "canonical receipt must be 334 bytes")
  let ed ← buildEd25519VerifyInstruction encoded executionPubkey signature
  let config ← configPda P programId
  let provider ← providerPda P programId providerAuthority
  let data ← ofProtocol (encodeSubmitReceipt receipt)
  let submit : ChainInstruction :=
    { programId,
      accounts := [.newReadonly config.address false, .newReadonly provider.address false,
        .new job false, .newReadonly instructionsSysvarId false],
      data }
  .ok (.new "submit_receipt" programId [ed, submit] [] (some receipt.expiresAt))

def buildSubmitReceiptPlan (programId job providerAuthority : Pubkey)
    (receipt : AgentBondWorkReceiptV1) (executionPubkey : Pubkey) (signature : Bytes 64) :
    Planned InstructionPlan :=
  buildSubmitReceiptPlanAt P programId job providerAuthority receipt executionPubkey signature none

/-- The count and the offsets of the three parts, as a client writes them. -/
def ed25519Header : List UInt8 := [1, 0, 48, 0, 255, 255, 16, 0, 255, 255, 112, 0, 78, 1, 255, 255]

theorem parse_ed25519Header (key : Pubkey) (signature : Bytes 64) (message : Bytes 334)
    (index : ℕ) :
    parseEd25519InstructionData
        (ed25519Header ++ (key.toList ++ (signature.toList ++ message.toList))) message.toList
        index = .ok key := by
  set data := ed25519Header ++ (key.toList ++ (signature.toList ++ message.toList)) with hdata
  have hlen : data.length = 446 := by simp [hdata, ed25519Header]
  have hoffsets : (data.drop 2).take 14 = ed25519Header.drop 2 := by simp [hdata, ed25519Header]
  have hheader : ed25519Header.length = 16 := rfl
  have hkey : sliceChecked data 16 32 = .ok key := by
    simp [sliceChecked, hdata, slice_skip, slice_field, hheader]
  have hsig : sliceChecked data 48 64 = .ok signature := by
    simp [sliceChecked, hdata, slice_skip, slice_field, hheader]
  have hmessage : sliceChecked data 112 334 = .ok message := by
    simp [sliceChecked, hdata, slice_skip, slice_last, hheader]
  simp only [parseEd25519InstructionData, bind_eq_ok, ensure_eq_ok, exists_const, hoffsets]
  refine ⟨message.toList_length, by omega, rfl, by omega, 48, rfl, 65535, rfl, 16, rfl, 65535, rfl,
    112, rfl, 334, rfl, 65535, rfl, (), ?_, (), ?_, (), ?_, key, hkey, signature, hsig, rfl,
    message, hmessage, rfl, rfl⟩
  all_goals exact ensure_eq_ok.mpr (Or.inl rfl)

theorem parse_of_buildEd25519 {message : List UInt8} {key : Pubkey} {signature : Bytes 64}
    {ed : ChainInstruction}
    (h : buildEd25519VerifyInstruction message key signature = .ok ed) (index : ℕ) :
    parseEd25519InstructionData ed.data message index = .ok key := by
  simp only [buildEd25519VerifyInstruction, bind_eq_ok, ensure_eq_ok, exists_const,
    Except.ok.injEq] at h
  obtain ⟨hlen, -, rfl⟩ := h
  obtain ⟨msg, rfl⟩ : ∃ msg : Bytes 334, message = msg.toList := ⟨⟨message, hlen⟩, rfl⟩
  have hparse := parse_ed25519Header key signature msg index
  rw [show receiptEncodedLen = 334 from rfl] at hlen
  simpa [hlen, leBytes, ed25519Header] using hparse

variable {P}

/-- The program reads from a receipt plan the receipt it was made for, and from the precompile's
instruction, for the message of that receipt, the key it was made with. -/
theorem receipt_plan_accepted {programId job provider key : Pubkey}
    {receipt : AgentBondWorkReceiptV1} {signature : Bytes 64} {now : Option Int64}
    {plan : InstructionPlan}
    (h : buildSubmitReceiptPlanAt P programId job provider receipt key signature now = .ok plan) :
    ∃ ed submit, plan.toSolanaInstructions = .ok [ed, submit] ∧
      Instruction.parse submit.data = .ok (.submitReceipt receipt) ∧
      ∃ message, receipt.encode = .ok message ∧
        ∀ index, parseEd25519InstructionData ed.data message index = .ok key := by
  simp only [buildSubmitReceiptPlanAt, bind_eq_ok, ensure_eq_ok, exists_const, ofProtocol_eq_ok,
    Except.ok.injEq] at h
  obtain ⟨-, -, -, -, -, -, -, message, hmessage, -, ed, hed, config, -, provider', -, data, hdata,
    rfl⟩ := h
  refine ⟨ed, _, InstructionPlan.toSolanaInstructions_new .., ?_, message, hmessage,
    parse_of_buildEd25519 hed⟩
  exact Instruction.parse_of_encode ((Instruction.encodeData_eq (.submitReceipt receipt)) ▸ hdata)

namespace Sample

theorem exists_receiptPlan :
    ∃ plan, buildSubmitReceiptPlanAt platform programId jobKey provider receipt executionKey
      (List.Vector.replicate 64 0) (some 40) = .ok plan :=
  exists_of_isOk (by decide +kernel)

theorem receipt_plan_accepted_sample :
    ∃ plan, buildSubmitReceiptPlanAt platform programId jobKey provider receipt executionKey
        (List.Vector.replicate 64 0) (some 40) = .ok plan ∧
      ∃ ed submit, plan.toSolanaInstructions = .ok [ed, submit] ∧
        Instruction.parse submit.data = .ok (.submitReceipt receipt) ∧
        ∃ message, receipt.encode = .ok message ∧
          ∀ index, parseEd25519InstructionData ed.data message index = .ok executionKey := by
  obtain ⟨plan, hplan⟩ := exists_receiptPlan
  exact ⟨plan, hplan, receipt_plan_accepted hplan⟩

end Sample

end AgentBond
