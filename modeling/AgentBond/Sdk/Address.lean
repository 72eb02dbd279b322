import AgentBond.Program.Accounts

/-! # Addresses of the client

The addresses a client derives for the accounts of the program, from the same
seeds as the program.
-/

namespace AgentBond

open Foundation

inductive SdkError
  | invalidPubkey (text : List Char)
  | invalidAmount
  | invalidDeadlineOrder
  | invalidInput (text : String)
  | wrongOwner
  | wrongAddress
  | decode (text : String)
  | decodeFailed (e : ProtocolError)
  | protocol (e : ProtocolError)
  /-- The search for an associated token address panics when it finds none. -/
  | panicked
  deriving DecidableEq

abbrev Planned (α : Type) := Except SdkError α

/-- A failure of the shared types, reported by the client. -/
def ofProtocol {α : Type} (r : Except ProtocolError α) : Planned α := r.mapError .protocol

theorem mapError_eq_ok {ε ε' α : Type} {r : Except ε α} {f : ε → ε'} {a : α} :
    r.mapError f = .ok a ↔ r = .ok a := by
  cases r <;> simp [Except.mapError]

@[simp] theorem ofProtocol_eq_ok {α : Type} {r : Except ProtocolError α} {a : α} :
    ofProtocol r = .ok a ↔ r = .ok a := by
  cases r <;> simp [ofProtocol, Except.mapError]

theorem exists_of_isOk {α : Type} {r : Planned α} (h : r.isOk = true) : ∃ a, r = .ok a := by
  cases r with
  | error e => cases h
  | ok a => exact ⟨a, rfl⟩

/-- A derived address with its bump. -/
structure PdaAddress where
  address : Pubkey
  bump : UInt8
  deriving DecidableEq

variable (P : Platform)

def findPda (seeds : Seeds) (programId : Pubkey) : Planned PdaAddress :=
  okOr ((P.tryFindProgramAddress seeds programId).map fun (address, bump) => { address, bump })
    (.invalidInput "pda derivation failed")

def configPda (programId : Pubkey) : Planned PdaAddress :=
  findPda P configSeedParts programId

def providerPda (programId authority : Pubkey) : Planned PdaAddress :=
  findPda P (providerSeedParts authority) programId

def providerBondPda (programId authority mint : Pubkey) : Planned PdaAddress :=
  findPda P (bondSeedParts authority mint) programId

def jobPda (programId buyer provider : Pubkey) (nonce : UInt64) : Planned PdaAddress :=
  findPda P (jobSeedParts buyer provider nonce) programId

def challengePda (programId job : Pubkey) : Planned PdaAddress :=
  findPda P (challengeSeedParts job) programId

/-- The associated token account under the legacy token program. -/
def associatedAddress (owner mint : Pubkey) : Planned Pubkey :=
  okOr (P.ata owner mint) .panicked

def bondVaultAta (bond mint : Pubkey) : Planned Pubkey := associatedAddress P bond mint

def jobEscrowAta (job mint : Pubkey) : Planned Pubkey := associatedAddress P job mint

def userSettlementAta (owner mint : Pubkey) : Planned Pubkey := associatedAddress P owner mint

variable {P}

@[simp] theorem findPda_eq_ok {seeds : Seeds} {programId : Pubkey} {a : PdaAddress} :
    findPda P seeds programId = .ok a ↔
      P.tryFindProgramAddress seeds programId = some (a.address, a.bump) := by
  simp only [findPda, okOr_eq_ok, Option.map_eq_some_iff, Prod.exists]
  constructor
  · rintro ⟨address, bump, h, rfl⟩
    exact h
  · intro h
    exact ⟨a.address, a.bump, h, rfl⟩

@[simp] theorem associatedAddress_eq_ok {owner mint a : Pubkey} :
    associatedAddress P owner mint = .ok a ↔ P.ata owner mint = some a :=
  okOr_eq_ok

end AgentBond
