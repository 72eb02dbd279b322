import AgentBond.Runtime.Platform

/-! # Account checks

The guards on account flags, addresses and owners, the creation and closing of
program-derived accounts and the writing of their data.
-/

namespace AgentBond

open Foundation

/-- An account as an instruction passes it. -/
structure AccountMeta where
  key : Pubkey
  isSigner : Bool
  isWritable : Bool
  deriving DecidableEq

/-- A writable account. -/
def AccountMeta.new (key : Pubkey) (isSigner : Bool) : AccountMeta :=
  { key, isSigner, isWritable := true }

def AccountMeta.newReadonly (key : Pubkey) (isSigner : Bool) : AccountMeta :=
  { key, isSigner, isWritable := false }

/-- What an instruction is run with besides its data: its accounts, the clock and the
top-level instructions of its transaction, as program ids with data. -/
structure Ctx where
  accounts : List AccountMeta
  now : Int64
  instructions : List (Pubkey × List UInt8)
  currentIndex : UInt16
  deriving DecidableEq

abbrev Outcome (α : Type) := Except ProgramError α

def fail (e : ProtocolError) : ProgramError := .custom e.code

/-- A failure of the shared types, reported by the program. -/
def orFail {α : Type} (r : Except ProtocolError α) : Outcome α := r.mapError fail

@[simp] theorem orFail_eq_ok {α : Type} {r : Except ProtocolError α} {a : α} :
    orFail r = .ok a ↔ r = .ok a := by
  cases r <;> simp [orFail, Except.mapError]

/-- The runtime refuses a call that asks for more than the caller was given. -/
def privilegeEscalation : ProgramError := .runtime 1

def requireSigner (m : AccountMeta) : Outcome Unit :=
  ensure (m.isSigner = true) (fail .missingSignature)

def requireWritable (m : AccountMeta) : Outcome Unit :=
  ensure (m.isWritable = true) (fail .accountNotWritable)

def requireReadonly (m : AccountMeta) : Outcome Unit :=
  ensure (m.isWritable = false) (fail .invalidConfig)

def requireSystemProgram (m : AccountMeta) : Outcome Unit :=
  ensure (m.key = systemProgramId) (fail .invalidOwner)

def requireKeysEq (actual expected : Pubkey) (e : ProtocolError) : Outcome Unit :=
  ensure (actual = expected) (fail e)

def requireAccountKey (m : AccountMeta) (expected : Pubkey) (e : ProtocolError) : Outcome Unit :=
  ensure (m.key = expected) (fail e)

def requireOwner (L : Ledger) (m : AccountMeta) (owner : Pubkey) : Outcome Unit :=
  ensure ((L.account m.key).owner = owner) (fail .invalidOwner)

def isUninitialized (L : Ledger) (m : AccountMeta) : Prop :=
  (L.account m.key).owner = systemProgramId ∧ (L.account m.key).data.len = 0

instance (L : Ledger) (m : AccountMeta) : Decidable (isUninitialized L m) :=
  inferInstanceAs (Decidable (_ ∧ _))

def requireUninitialized (L : Ledger) (m : AccountMeta) : Outcome Unit :=
  ensure (isUninitialized L m) (fail .alreadyInitialized)

variable (P : Platform)

/-- Whether a call may use the account as a signer: by its own signature, or by the seeds the
program adds to the call. -/
def signedBy : Option Seeds → AccountMeta → Prop
  | none, m => m.isSigner = true
  | some seeds, m => P.createProgramAddress seeds P.programId = some m.key ∨ m.isSigner = true

instance : ∀ (seeds : Option Seeds) (m : AccountMeta), Decidable (signedBy P seeds m)
  | none, m => inferInstanceAs (Decidable (m.isSigner = true))
  | some _, _ => inferInstanceAs (Decidable (_ ∨ _))

/-- Call `CreateAccount` of the System program with the rent-exempt balance. -/
def invokeCreateAccount (L : Ledger) (payer account : AccountMeta) (space : ℕ) (seeds : Seeds) :
    Outcome Ledger := do
  ensure (payer.isSigner = true ∧ payer.isWritable = true) privilegeEscalation
  ensure (signedBy P (some seeds) account) privilegeEscalation
  P.createAccount L payer.key account.key (P.minimumBalance space) space P.programId

def createPdaAccount (L : Ledger) (payer account : AccountMeta) (space : ℕ) (seeds : Seeds) :
    Outcome Ledger := do
  requireWritable account
  requireUninitialized L account
  invokeCreateAccount P L payer account space seeds

def writeAccountData (L : Ledger) (m : AccountMeta) (data : List UInt8) : Outcome Ledger := do
  requireWritable m
  ensure ((L.account m.key).data.len = data.length) (fail .invalidAccountLength)
  .ok (L.put m.key { L.account m.key with data := .raw data })

/-- Move the lamports of the account to the recipient and give the account up. -/
def closePdaAccount (L : Ledger) (account recipient : AccountMeta) : Outcome Ledger := do
  requireWritable account
  requireWritable recipient
  let lamports := (L.account account.key).lamports
  ensure ((L.account recipient.key).lamports + lamports < 2 ^ 64) (fail .mathOverflow)
  let L₁ := L.put recipient.key
    { L.account recipient.key with lamports := (L.account recipient.key).lamports + lamports }
  .ok (L₁.put account.key Account.vacant)

/-- The account sits at the address the seeds derive and belongs to the program. -/
def validatePda (L : Ledger) (m : AccountMeta) (seeds : Seeds) : Outcome Unit := do
  let expected ← okOr (P.createProgramAddress seeds P.programId) (fail .invalidPda)
  requireAccountKey m expected .invalidPda
  requireOwner L m P.programId

def validateConfigPda (L : Ledger) (m : AccountMeta) (bump : UInt8) : Outcome Unit :=
  validatePda P L m (configSeedParts ++ [[bump]])

def validateProviderPda (L : Ledger) (m : AccountMeta) (authority : Pubkey) (bump : UInt8) :
    Outcome Unit :=
  validatePda P L m (providerSeedParts authority ++ [[bump]])

def validateBondPda (L : Ledger) (m : AccountMeta) (authority mint : Pubkey) (bump : UInt8) :
    Outcome Unit :=
  validatePda P L m (bondSeedParts authority mint ++ [[bump]])

def validateJobPda (L : Ledger) (m : AccountMeta) (buyer provider : Pubkey) (jobNonce : UInt64)
    (bump : UInt8) : Outcome Unit :=
  validatePda P L m (jobSeedParts buyer provider jobNonce ++ [[bump]])

def validateChallengePda (L : Ledger) (m : AccountMeta) (job : Pubkey) (bump : UInt8) :
    Outcome Unit :=
  validatePda P L m (challengeSeedParts job ++ [[bump]])

def bondSignerSeeds (authority mint : Pubkey) (bump : UInt8) : Seeds :=
  bondSeedParts authority mint ++ [[bump]]

def jobSignerSeeds (buyer provider : Pubkey) (jobNonce : UInt64) (bump : UInt8) : Seeds :=
  jobSeedParts buyer provider jobNonce ++ [[bump]]

variable {P}

@[simp] theorem validatePda_eq_ok {L : Ledger} {m : AccountMeta} {seeds : Seeds} {u : Unit} :
    validatePda P L m seeds = .ok u ↔
      P.createProgramAddress seeds P.programId = some m.key ∧
        (L.account m.key).owner = P.programId := by
  simp only [validatePda, requireAccountKey, requireOwner, bind_eq_ok, okOr_eq_ok, ensure_eq_ok]
  constructor
  · rintro ⟨_, h, _, rfl, ho⟩; exact ⟨h, ho⟩
  · rintro ⟨h, ho⟩; exact ⟨_, h, (), rfl, ho⟩

end AgentBond
