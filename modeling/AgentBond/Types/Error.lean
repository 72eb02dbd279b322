/-! # Protocol errors

The errors shared by the program and its host code, in the order of their
numeric codes, which are 1 to 60.
-/

namespace AgentBond

inductive ProtocolError
  | invalidInstructionData | emptyInstructionData | unknownInstruction
  | instructionNotImplemented | invalidInstructionLength | invalidAccountData
  | invalidAccountDiscriminator | unsupportedAccountVersion | invalidAccountLength
  | invalidJobState | invalidStateTransition | invalidReceiptLength | invalidReceiptDomain
  | unsupportedReceiptVersion | invalidReceiptTimestamps | invalidBoolean
  | invalidProviderStatus | integerOverflow | unauthorized | protocolPaused
  | alreadyInitialized | uninitializedAccount | invalidPda | invalidBump | invalidOwner
  | invalidMint | invalidTokenProgram | invalidTokenAccount | invalidTokenAccountOwner
  | invalidTokenAccountMint | invalidTokenAccountAuthority | invalidAssociatedTokenAccount
  | tokenAccountFrozen | insufficientFunds | insufficientBond | bondLocked
  | deadlineExpired | deadlineNotReached | invalidDeadlineOrder | invalidAmount
  | invalidPubkey | duplicateExecutionKey | executionKeyNotFound | executionKeyLimit
  | invalidReceiptField | invalidEd25519Instruction | missingEd25519Instruction
  | invalidSignature | escrowNotEmpty | escrowUnexpectedBalance | challengeBondMustBeZero
  | invalidChallengeStatus | mathOverflow | accountNotWritable | missingSignature
  | invalidRentRecipient | invalidConfig | providerInactive | futureTimestamp
  | receiptExpired
  deriving DecidableEq, Repr

/-- The numeric code of an error. -/
def ProtocolError.code (e : ProtocolError) : UInt32 := UInt32.ofNat (e.ctorIdx + 1)

end AgentBond
