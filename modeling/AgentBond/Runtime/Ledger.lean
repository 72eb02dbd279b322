import AgentBond.Foundation.Journal
import AgentBond.Types.Record

/-! # The ledger

Accounts as the program sees them: lamports, an owning program and data. Token
accounts and mints are kept in parsed form; a token account that has not been
initialized is raw zeroed data of the right length.
-/

namespace AgentBond

open Foundation

def systemProgramId : Pubkey := zeroKey

def tokenProgramId : Pubkey :=
  ⟨[0x06, 0xdd, 0xf6, 0xe1, 0xd7, 0x65, 0xa1, 0x93, 0xd9, 0xcb, 0xe1, 0x46, 0xce, 0xeb, 0x79, 0xac,
    0x1c, 0xb4, 0x85, 0xed, 0x5f, 0x5b, 0x37, 0x91, 0x3a, 0x8c, 0xf5, 0x85, 0x7e, 0xff, 0x00, 0xa9],
    rfl⟩

def token2022ProgramId : Pubkey :=
  ⟨[0x06, 0xdd, 0xf6, 0xe1, 0xee, 0x75, 0x8f, 0xde, 0x18, 0x42, 0x5d, 0xbc, 0xe4, 0x6c, 0xcd, 0xda,
    0xb6, 0x1a, 0xfc, 0x4d, 0x83, 0xb9, 0x0d, 0x27, 0xfe, 0xbd, 0xf9, 0x28, 0xd8, 0xa1, 0x8b, 0xfc],
    rfl⟩

def associatedTokenProgramId : Pubkey :=
  ⟨[0x8c, 0x97, 0x25, 0x8f, 0x4e, 0x24, 0x89, 0xf1, 0xbb, 0x3d, 0x10, 0x29, 0x14, 0x8e, 0x0d, 0x83,
    0x0b, 0x5a, 0x13, 0x99, 0xda, 0xff, 0x10, 0x84, 0x04, 0x8e, 0x7b, 0xd8, 0xdb, 0xe9, 0xf8, 0x59],
    rfl⟩

def ed25519ProgramId : Pubkey :=
  ⟨[0x03, 0x7d, 0x46, 0xd6, 0x7c, 0x93, 0xfb, 0xbe, 0x12, 0xf9, 0x42, 0x8f, 0x83, 0x8d, 0x40, 0xff,
    0x05, 0x70, 0x74, 0x49, 0x27, 0xf4, 0x8a, 0x64, 0xfc, 0xca, 0x70, 0x44, 0x80, 0x00, 0x00, 0x00],
    rfl⟩

def instructionsSysvarId : Pubkey :=
  ⟨[0x06, 0xa7, 0xd5, 0x17, 0x18, 0x7b, 0xd1, 0x66, 0x35, 0xda, 0xd4, 0x04, 0x55, 0xfd, 0xc2, 0xc0,
    0xc1, 0x24, 0xc6, 0x8f, 0x21, 0x56, 0x75, 0xa5, 0xdb, 0xba, 0xcb, 0x5f, 0x08, 0x00, 0x00, 0x00],
    rfl⟩

/-- A token account. The token program keeps every balance within the supply
of its mint, a 64-bit word. -/
structure TokenAccount where
  mint : Pubkey
  owner : Pubkey
  amount : ℕ
  delegate : Option Pubkey
  frozen : Bool
  deriving DecidableEq

/-- Zeroed data read as a token account. -/
def TokenAccount.unset : TokenAccount :=
  { mint := zeroKey, owner := zeroKey, amount := 0, delegate := none, frozen := false }

structure MintAccount where
  decimals : UInt8
  isInitialized : Bool
  deriving DecidableEq

inductive AccountData
  | raw (bytes : List UInt8)
  | token (t : TokenAccount)
  | mint (m : MintAccount)
  deriving DecidableEq

namespace AccountData

def len : AccountData → ℕ
  | raw bytes => bytes.length
  | token _ => 165
  | mint _ => 82

def bytes : AccountData → List UInt8
  | raw bytes => bytes
  | _ => []

def asToken : AccountData → Option TokenAccount
  | raw bytes => if bytes.length = 165 then some .unset else none
  | token t => some t
  | mint _ => none

def asMint : AccountData → Option MintAccount
  | raw bytes => if bytes.length = 82 then some { decimals := 0, isInitialized := false } else none
  | token _ => none
  | mint m => some m

theorem asMint_of_asToken {d : AccountData} {t : TokenAccount} (h : d.asToken = some t) :
    d.asMint = none := by
  cases d with
  | raw bytes =>
    simp only [asToken] at h
    split at h <;> simp_all [asMint]
  | token t => rfl
  | mint m => cases h

end AccountData

structure Account where
  lamports : ℕ
  owner : Pubkey
  data : AccountData
  deriving DecidableEq

/-- An address nobody has used. -/
def Account.vacant : Account := { lamports := 0, owner := systemProgramId, data := .raw [] }

/-- Nothing but lamports can sit at the address. -/
def Account.Unused (a : Account) : Prop := a.owner = systemProgramId ∧ a.data = .raw []

abbrev Ledger := Journal Pubkey Account

namespace Ledger

def account (L : Ledger) (k : Pubkey) : Account := Journal.get Account.vacant L k

def put (L : Ledger) (k : Pubkey) (a : Account) : Ledger := Journal.set L k a

@[simp] theorem account_put_self (L : Ledger) (k : Pubkey) (a : Account) :
    (L.put k a).account k = a :=
  Journal.get_set_self ..

theorem account_put_of_ne (L : Ledger) {k i : Pubkey} (a : Account) (h : i ≠ k) :
    (L.put k a).account i = L.account i :=
  Journal.get_set_of_ne _ _ _ h

/-- The token account at an address, as the program parses it. -/
def tokenAt (L : Ledger) (k : Pubkey) : Option TokenAccount :=
  if (L.account k).owner = tokenProgramId then (L.account k).data.asToken else none

/-- The mint at an address, as the program parses it. -/
def mintAt (L : Ledger) (k : Pubkey) : Option MintAccount :=
  if (L.account k).owner = tokenProgramId then (L.account k).data.asMint else none

/-- The record at an address, when the given program owns it. -/
def recordAt (program : Pubkey) (L : Ledger) (k : Pubkey) : Option Record :=
  if (L.account k).owner = program then Record.decode (L.account k).data.bytes else none

/-- The runtime never creates lamports: no two accounts together hold more
than a 64-bit word. -/
def Capitalized (L : Ledger) : Prop :=
  ∀ a b, a ≠ b → (L.account a).lamports + (L.account b).lamports < 2 ^ 64

variable {L : Ledger} {k : Pubkey}

theorem owner_of_tokenAt {t : TokenAccount} (h : L.tokenAt k = some t) :
    (L.account k).owner = tokenProgramId := by
  by_contra hne
  simp [tokenAt, hne] at h

theorem mintAt_of_tokenAt {t : TokenAccount} (h : L.tokenAt k = some t) : L.mintAt k = none := by
  simp only [tokenAt, mintAt, owner_of_tokenAt h, if_true] at h ⊢
  exact AccountData.asMint_of_asToken h

theorem tokenAt_of_owner (h : (L.account k).owner ≠ tokenProgramId) : L.tokenAt k = none :=
  if_neg h

theorem mintAt_of_owner (h : (L.account k).owner ≠ tokenProgramId) : L.mintAt k = none :=
  if_neg h

theorem recordAt_of_owner {program : Pubkey} (h : (L.account k).owner ≠ program) :
    L.recordAt program k = none :=
  if_neg h

theorem owner_of_recordAt {program : Pubkey} {r : Record} (h : L.recordAt program k = some r) :
    (L.account k).owner = program := by
  by_contra hne
  simp [recordAt, hne] at h

end Ledger

end AgentBond
