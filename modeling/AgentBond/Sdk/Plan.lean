import AgentBond.Foundation.Encodings
import AgentBond.Sdk.Address

/-! # Instruction plans

A plan carries its instructions as text: keys in base 58 and data in base 64.
Reading the text gives the instructions back.
-/

namespace AgentBond

open Foundation

/-- An instruction of the chain: the program, its accounts and its data. -/
structure ChainInstruction where
  programId : Pubkey
  accounts : List AccountMeta
  data : List UInt8
  deriving DecidableEq

def keyToText (k : Pubkey) : Text := Base58.encode k.toList

def parsePubkey (text : Text) : Planned Pubkey :=
  okOr (Base58.decodeKey text) (.invalidPubkey text)

theorem parsePubkey_keyToText (k : Pubkey) : parsePubkey (keyToText k) = .ok k := by
  rw [parsePubkey, keyToText, Base58.decodeKey_encode]
  rfl

structure AccountMetaPlan where
  pubkey : Text
  isSigner : Bool
  isWritable : Bool
  deriving DecidableEq

structure PlannedInstruction where
  programId : Text
  accounts : List AccountMetaPlan
  dataBase64 : Text
  deriving DecidableEq

structure InstructionPlan where
  action : String
  programId : Text
  instructions : List PlannedInstruction
  requiredSigners : List Text
  expiresAt : Option Int64
  mint : Option Text
  amount : Option UInt64
  deriving DecidableEq

namespace AccountMetaPlan

def ofMeta (m : AccountMeta) : AccountMetaPlan :=
  { pubkey := keyToText m.key, isSigner := m.isSigner, isWritable := m.isWritable }

def toMeta (a : AccountMetaPlan) : Planned AccountMeta := do
  let key ← parsePubkey a.pubkey
  .ok (if a.isWritable then AccountMeta.new key a.isSigner
    else AccountMeta.newReadonly key a.isSigner)

theorem toMeta_ofMeta (m : AccountMeta) : (ofMeta m).toMeta = .ok m := by
  obtain ⟨key, isSigner, isWritable⟩ := m
  rw [toMeta, ofMeta, parsePubkey_keyToText]
  cases isWritable <;> rfl

end AccountMetaPlan

namespace PlannedInstruction

def ofInstruction (ix : ChainInstruction) : PlannedInstruction :=
  { programId := keyToText ix.programId, accounts := ix.accounts.map .ofMeta,
    dataBase64 := Base64.encode ix.data }

def toInstruction (ix : PlannedInstruction) : Planned ChainInstruction := do
  let programId ← parsePubkey ix.programId
  let accounts ← ix.accounts.mapM AccountMetaPlan.toMeta
  let data ← okOr (Base64.decode ix.dataBase64) (.invalidInput "invalid instruction data base64")
  .ok { programId, accounts, data }

theorem toInstruction_ofInstruction (ix : ChainInstruction) :
    (ofInstruction ix).toInstruction = .ok ix := by
  have hmetas (ms : List AccountMeta) :
      (ms.map AccountMetaPlan.ofMeta).mapM AccountMetaPlan.toMeta = .ok ms := by
    induction ms with
    | nil => rfl
    | cons m ms ih =>
      rw [List.map_cons, List.mapM_cons, AccountMetaPlan.toMeta_ofMeta, ih]
      rfl
  rw [toInstruction, ofInstruction, parsePubkey_keyToText, hmetas, Base64.decode_encode]
  rfl

end PlannedInstruction

namespace InstructionPlan

def new (action : String) (programId : Pubkey) (instructions : List ChainInstruction)
    (requiredSigners : List Pubkey) (expiresAt : Option Int64) : InstructionPlan :=
  { action, programId := keyToText programId, instructions := instructions.map .ofInstruction,
    requiredSigners := requiredSigners.map keyToText, expiresAt, mint := none, amount := none }

def toSolanaInstructions (plan : InstructionPlan) : Planned (List ChainInstruction) :=
  plan.instructions.mapM PlannedInstruction.toInstruction

@[simp] theorem toSolanaInstructions_new (action : String) (programId : Pubkey)
    (instructions : List ChainInstruction) (requiredSigners : List Pubkey)
    (expiresAt : Option Int64) :
    (new action programId instructions requiredSigners expiresAt).toSolanaInstructions =
      .ok instructions := by
  simp only [toSolanaInstructions, new]
  induction instructions with
  | nil => rfl
  | cons ix instructions ih =>
    rw [List.map_cons, List.mapM_cons, PlannedInstruction.toInstruction_ofInstruction, ih]
    rfl

end InstructionPlan

end AgentBond
