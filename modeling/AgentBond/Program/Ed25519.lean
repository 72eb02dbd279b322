import AgentBond.Program.Helpers

/-! # Ed25519 introspection

The receipt is signed by the Ed25519 precompile in the instruction before. The
parser reads the single signature's offsets and requires them to point into
that instruction and the signed message to be the receipt.
-/

namespace AgentBond

open Foundation

/-- The index that means the precompile's own instruction. -/
def ed25519CurrentInstructionIndex : ℕ := 65535

def requireSelfIndex (index ed25519Index : ℕ) : Except ProtocolError Unit :=
  ensure (index = ed25519CurrentInstructionIndex ∨ index = ed25519Index) .invalidEd25519Instruction

def sliceChecked (data : List UInt8) (offset len : ℕ) : Except ProtocolError (Bytes len) :=
  okOr (slice data offset len) .invalidEd25519Instruction

def readU16 (data : List UInt8) (offset : ℕ) : Except ProtocolError ℕ := do
  let bytes ← sliceChecked data offset 2
  .ok (ofLeBytes bytes.toList)

/-- The verified public key, when the data verifies one signature of the message. -/
def parseEd25519InstructionData (data message : List UInt8) (ed25519Index : ℕ) :
    Except ProtocolError Pubkey := do
  ensure (message.length = receiptEncodedLen) .invalidReceiptLength
  ensure (2 ≤ data.length) .invalidEd25519Instruction
  ensure (byteAt data 0 = 1) .invalidEd25519Instruction
  ensure (16 ≤ data.length) .invalidEd25519Instruction
  let offsets := (data.drop 2).take 14
  let signatureOffset ← readU16 offsets 0
  let signatureInstructionIndex ← readU16 offsets 2
  let publicKeyOffset ← readU16 offsets 4
  let publicKeyInstructionIndex ← readU16 offsets 6
  let messageDataOffset ← readU16 offsets 8
  let messageDataSize ← readU16 offsets 10
  let messageInstructionIndex ← readU16 offsets 12
  requireSelfIndex signatureInstructionIndex ed25519Index
  requireSelfIndex publicKeyInstructionIndex ed25519Index
  requireSelfIndex messageInstructionIndex ed25519Index
  let pubkey ← sliceChecked data publicKeyOffset 32
  let _ ← sliceChecked data signatureOffset 64
  ensure (messageDataSize = receiptEncodedLen) .invalidEd25519Instruction
  let signedMessage ← sliceChecked data messageDataOffset messageDataSize
  ensure (signedMessage.toList = message) .invalidSignature
  .ok pubkey

/-- The instruction before the current one, as the instructions sysvar shows it. -/
def precedingInstruction (ctx : Ctx) : Option (Pubkey × List UInt8) :=
  if ctx.currentIndex = 0 then none else ctx.instructions[ctx.currentIndex.toNat - 1]?

def verifyPrecedingEd25519 (ctx : Ctx) (instructionsSysvar : AccountMeta) (message : List UInt8) :
    Outcome Pubkey := do
  ensure (message.length = receiptEncodedLen) (fail .invalidReceiptLength)
  ensure (instructionsSysvar.key = instructionsSysvarId) (fail .invalidEd25519Instruction)
  let (programId, data) ← okOr (precedingInstruction ctx) (fail .missingEd25519Instruction)
  ensure (programId = ed25519ProgramId) (fail .missingEd25519Instruction)
  orFail (parseEd25519InstructionData data message (ctx.currentIndex.toNat - 1))

end AgentBond
