import AgentBond.Runtime.Tokens

/-! # The platform

What the program calls but does not contain: address derivation, the rent
schedule, SHA-256, the System program and the SPL Token program. They are
parameters, each with the documented behaviour the program relies on.
-/

namespace AgentBond

open Foundation

/-- A failure the program reports by code, or one of the runtime and the programs it calls. -/
inductive ProgramError
  | custom (code : UInt32)
  | runtime (code : ℕ)
  deriving DecidableEq

namespace Ledger

/-- The effect of creating a rent-exempt account of zeroes at an unused address. -/
structure AccountCreated (L : Ledger) (payer account : Pubkey) (lamports space : ℕ) (owner : Pubkey)
    (L' : Ledger) : Prop where
  empty : L.account account = Account.vacant
  payer_ne : payer ≠ account
  payer_owner : (L.account payer).owner = systemProgramId
  payer_lamports : lamports ≤ (L.account payer).lamports
  created : L'.account account = { lamports, owner, data := .raw (List.replicate space 0) }
  charged : L'.account payer =
    { L.account payer with lamports := (L.account payer).lamports - lamports }
  frame : ∀ k, k ≠ payer → k ≠ account → L'.account k = L.account k

/-- The effect of a transfer from an account nobody is delegated to spend from. Lamports move
with the tokens of a native mint and are left open for the two accounts. -/
structure Transferred (L : Ledger) (source mint destination authority : Pubkey) (amount : ℕ)
    (L' : Ledger) : Prop where
  debited : ∃ t, L.tokenAt source = some t ∧ t.owner = authority ∧ t.mint = mint ∧ amount ≤ t.amount
  credited : ∃ t, L.tokenAt destination = some t ∧ t.mint = mint
  tokens : L'.tokenAt = Tokens.move L.tokenAt source destination amount
  frame : ∀ k, k ≠ source → k ≠ destination → L'.account k = L.account k

/-- What a transfer by the owner needs: enough tokens of an initialized mint between two
accounts that are not frozen. -/
structure Transferable (L : Ledger) (source mint destination authority : Pubkey) (amount : ℕ)
    (decimals : UInt8) : Prop where
  mint_set : mint ≠ zeroKey
  mint_at : ∃ m, L.mintAt mint = some m ∧ m.isInitialized ∧ m.decimals = decimals
  debited : ∃ t, L.tokenAt source = some t ∧ t.mint = mint ∧ t.owner = authority ∧
    t.frozen = false ∧ amount ≤ t.amount
  credited : ∃ t, L.tokenAt destination = some t ∧ t.mint = mint ∧ t.frozen = false
  single_owner : (L.account authority).owner ≠ tokenProgramId

/-- The effect of closing a token account: its lamports go to the destination. -/
structure TokenAccountClosed (L : Ledger) (account destination : Pubkey) (L' : Ledger) : Prop where
  ne : account ≠ destination
  closed : L'.account account = Account.vacant
  refunded : ∃ n, L'.account destination = { L.account destination with lamports := n }
  frame : ∀ k, k ≠ account → k ≠ destination → L'.account k = L.account k

end Ledger

open Ledger

/-- How much data one call can allocate. -/
def maxDataIncrease : ℕ := 10240

/-- The code outside the program, with the laws the program relies on. -/
structure Platform where
  programId : Pubkey
  programId_ne_system : programId ≠ systemProgramId
  programId_ne_token : programId ≠ tokenProgramId
  sha256 : List UInt8 → Pubkey
  minimumBalance : ℕ → ℕ
  createProgramAddress : Seeds → Pubkey → Option Pubkey
  tryFindProgramAddress : Seeds → Pubkey → Option (Pubkey × UInt8)
  /-- The bump that is found derives the address that is found. -/
  create_of_find : ∀ {seeds owner a bump}, tryFindProgramAddress seeds owner = some (a, bump) →
    createProgramAddress (seeds ++ [[bump]]) owner = some a
  /-- `CreateAccount` of the System program: payer, account, lamports, space, owner. -/
  createAccount : Ledger → Pubkey → Pubkey → ℕ → ℕ → Pubkey → Except ProgramError Ledger
  createAccount_ok : ∀ {L L' payer account lamports space owner},
    createAccount L payer account lamports space owner = .ok L' →
      AccountCreated L payer account lamports space owner L'
  createAccount_succeeds : ∀ {L : Ledger} {payer account lamports space owner},
    L.account account = Account.vacant → payer ≠ account → (L.account payer).Unused →
      lamports ≤ (L.account payer).lamports → space ≤ maxDataIncrease →
        ∃ L', createAccount L payer account lamports space owner = .ok L'
  /-- `TransferChecked` of the token program: source, mint, destination, authority. -/
  transferChecked : Ledger → Pubkey → Pubkey → Pubkey → Pubkey → ℕ → UInt8 →
    Except ProgramError Ledger
  transferChecked_ok : ∀ {L L' source mint destination authority amount decimals}
      {t : TokenAccount},
    transferChecked L source mint destination authority amount decimals = .ok L' →
      L.tokenAt source = some t → t.delegate = none →
        Transferred L source mint destination authority amount L'
  transferChecked_succeeds : ∀ {L source mint destination authority amount decimals},
    Transferable L source mint destination authority amount decimals →
      ∃ L', transferChecked L source mint destination authority amount decimals = .ok L'
  /-- `CloseAccount` of the token program: account, destination, authority. -/
  closeAccount : Ledger → Pubkey → Pubkey → Pubkey → Except ProgramError Ledger
  closeAccount_ok : ∀ {L L' account destination authority},
    closeAccount L account destination authority = .ok L' →
      TokenAccountClosed L account destination L'

namespace Platform

variable (P : Platform)

/-- Addresses derived for the program: nobody holds a key to them. -/
def Pda (a : Pubkey) : Prop := ∃ seeds, P.createProgramAddress seeds P.programId = some a

/-- The associated token account of a wallet. -/
def ata (wallet mint : Pubkey) : Option Pubkey :=
  (P.tryFindProgramAddress [wallet.toList, tokenProgramId.toList, mint.toList]
    associatedTokenProgramId).map (·.1)

/-- No two of the derivations collide. Derivation hashes the concatenated seeds. -/
def CollisionFree (derived : Seeds → Prop) : Prop :=
  ∀ {seeds seeds' : Seeds} {owner a : Pubkey}, derived seeds → derived seeds' →
    P.createProgramAddress seeds owner = some a → P.createProgramAddress seeds' owner = some a →
      seeds.flatten = seeds'.flatten

variable {P}

theorem CollisionFree.mono {derived derived' : Seeds → Prop} (h : P.CollisionFree derived)
    (hle : ∀ seeds, derived' seeds → derived seeds) : P.CollisionFree derived' :=
  fun hs hs' ha ha' => h (hle _ hs) (hle _ hs') ha ha'

theorem pda_of_create {seeds : Seeds} {a : Pubkey}
    (h : P.createProgramAddress seeds P.programId = some a) : P.Pda a :=
  ⟨seeds, h⟩

theorem pda_of_find {seeds : Seeds} {a : Pubkey} {bump : UInt8}
    (h : P.tryFindProgramAddress seeds P.programId = some (a, bump)) : P.Pda a :=
  pda_of_create (P.create_of_find h)

end Platform

end AgentBond
