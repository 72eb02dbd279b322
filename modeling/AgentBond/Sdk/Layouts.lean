import AgentBond.Sdk.Builders
import AgentBond.Sdk.Receipt

/-! # What is asked for

A client asks for a plan of an instruction about some parties. What is asked
says which accounts the instruction takes, by the part each of them plays, and
who signs.
-/

namespace AgentBond

open Foundation

/-- The part an account plays in an instruction. -/
inductive Role
  | key (k : Pubkey)
  | config
  | provider (authority : Pubkey)
  | bond (authority mint : Pubkey)
  | job (buyer provider : Pubkey) (nonce : UInt64)
  | challenge (of : Role)
  /-- The associated token account of the one who plays a part. -/
  | ata (owner : Role) (mint : Pubkey)

structure Slot where
  role : Role
  isSigner : Bool
  isWritable : Bool

/-- A writable slot. -/
def Slot.new (role : Role) (isSigner : Bool) : Slot := { role, isSigner, isWritable := true }

def Slot.newReadonly (role : Role) (isSigner : Bool) : Slot :=
  { role, isSigner, isWritable := false }

section Addresses

variable (P : Platform) (programId : Pubkey)

/-- The address of the account that plays the part. -/
@[simp] def Role.address : Role → Option Pubkey
  | key k => some k
  | config => (P.tryFindProgramAddress configSeedParts programId).map (·.1)
  | provider authority =>
    (P.tryFindProgramAddress (providerSeedParts authority) programId).map (·.1)
  | bond authority mint =>
    (P.tryFindProgramAddress (bondSeedParts authority mint) programId).map (·.1)
  | job buyer authority nonce =>
    (P.tryFindProgramAddress (jobSeedParts buyer authority nonce) programId).map (·.1)
  | challenge of => of.address.bind fun a =>
    (P.tryFindProgramAddress (challengeSeedParts a) programId).map (·.1)
  | ata owner mint => owner.address.bind fun a => P.ata a mint

def Slot.account (s : Slot) : Option AccountMeta :=
  (s.role.address P programId).map fun key =>
    { key, isSigner := s.isSigner, isWritable := s.isWritable }

/-- The accounts are those of the layout, in its order. -/
def Lists (layout : List Slot) (accounts : List AccountMeta) : Prop :=
  List.Forall₂ (fun s m => s.account P programId = some m) layout accounts

end Addresses

/-- What a client asks for: an instruction, and the parties it is about. -/
inductive Ask
  | initializeConfig (admin : Pubkey) (payload : InitializeConfigPayload)
  | setPaused (admin : Pubkey) (paused : Bool)
  | registerProvider (authority : Pubkey)
  | addExecutionKey (authority key : Pubkey)
  | revokeExecutionKey (authority key : Pubkey)
  | depositBond (authority mint : Pubkey) (amount : UInt64)
  | withdrawBond (authority mint : Pubkey) (amount : UInt64)
  | createJob (buyer provider : Pubkey) (now : Int64) (payload : CreateJobPayload)
  | fundJob (buyer provider mint : Pubkey) (nonce : UInt64)
  | acceptJob (provider buyer mint : Pubkey) (nonce : UInt64)
  | acceptWork (buyer provider mint : Pubkey) (nonce : UInt64)
  | challengeWork (buyer provider : Pubkey) (nonce : UInt64) (reasonHash : Pubkey)
  | resolveTimeoutSettle (payer buyer provider mint : Pubkey) (nonce : UInt64)
      (withChallenge : Bool)
  | resolveTimeoutRefund (payer buyer provider mint : Pubkey) (nonce : UInt64)
  | expireUnfunded (payer buyer provider : Pubkey) (nonce : UInt64)
  | expireUnaccepted (payer buyer provider mint : Pubkey) (nonce : UInt64)
  | slashBond (admin buyer provider mint : Pubkey) (nonce : UInt64)
  | closeJob (buyer provider mint : Pubkey) (nonce : UInt64) (includeEscrow : Bool)
  | submitReceipt (job provider : Pubkey) (receipt : AgentBondWorkReceiptV1) (key : Pubkey)
      (signature : Bytes 64) (now : Option Int64)

namespace Ask

/-- The plan of the builder for what is asked. -/
def build (P : Platform) (programId : Pubkey) : Ask → Planned InstructionPlan
  | initializeConfig admin payload => planInitializeConfig P programId admin payload
  | setPaused admin paused => planSetPaused P programId admin paused
  | registerProvider authority => planRegisterProvider P programId authority
  | addExecutionKey authority key => planAddExecutionKey P programId authority key
  | revokeExecutionKey authority key => planRevokeExecutionKey P programId authority key
  | depositBond authority mint amount => planDepositBond P programId authority mint amount
  | withdrawBond authority mint amount => planWithdrawBond P programId authority mint amount
  | createJob buyer provider now payload => planCreateJob P programId buyer provider now payload
  | fundJob buyer provider mint nonce => planFundJob P programId buyer provider mint nonce
  | acceptJob provider buyer mint nonce => planAcceptJob P programId provider buyer mint nonce
  | acceptWork buyer provider mint nonce => planAcceptWork P programId buyer provider mint nonce
  | challengeWork buyer provider nonce reasonHash =>
    planChallengeWork P programId buyer provider nonce reasonHash
  | resolveTimeoutSettle payer buyer provider mint nonce withChallenge =>
    planResolveTimeoutSettle P programId payer buyer provider mint nonce withChallenge
  | resolveTimeoutRefund payer buyer provider mint nonce =>
    planResolveTimeoutRefund P programId payer buyer provider mint nonce
  | expireUnfunded payer buyer provider nonce =>
    planExpireUnfunded P programId payer buyer provider nonce
  | expireUnaccepted payer buyer provider mint nonce =>
    planExpireUnaccepted P programId payer buyer provider mint nonce
  | slashBond admin buyer provider mint nonce =>
    planSlashBond P programId admin buyer provider mint nonce
  | closeJob buyer provider mint nonce includeEscrow =>
    planCloseJob P programId buyer provider mint nonce includeEscrow
  | submitReceipt job provider receipt key signature now =>
    buildSubmitReceiptPlanAt P programId job provider receipt key signature now

def instruction : Ask → Instruction
  | initializeConfig _ payload => .initializeConfig payload
  | setPaused _ paused => .setPaused paused
  | registerProvider _ => .registerProvider
  | addExecutionKey _ key => .addExecutionKey key
  | revokeExecutionKey _ key => .revokeExecutionKey key
  | depositBond _ _ amount => .depositBond amount
  | withdrawBond _ _ amount => .withdrawBond amount
  | createJob _ _ _ payload => .createJob payload
  | fundJob .. => .fundJob
  | acceptJob .. => .acceptJob
  | acceptWork .. => .acceptWork
  | challengeWork _ _ _ reasonHash => .challengeWork reasonHash
  | resolveTimeoutSettle .. => .resolveTimeoutSettle
  | resolveTimeoutRefund .. => .resolveTimeoutRefund
  | expireUnfunded .. => .expireUnfunded
  | expireUnaccepted .. => .expireUnaccepted
  | slashBond .. => .slashBond
  | closeJob .. => .closeJob
  | submitReceipt _ _ receipt .. => .submitReceipt receipt

/-- Who signs. A receipt is signed by the execution key it comes with. -/
def signer : Ask → Option Pubkey
  | initializeConfig admin _ | setPaused admin _ | slashBond admin .. => some admin
  | registerProvider authority | addExecutionKey authority _ | revokeExecutionKey authority _
  | depositBond authority .. | withdrawBond authority .. => some authority
  | createJob buyer .. | fundJob buyer .. | acceptWork buyer .. | challengeWork buyer ..
  | closeJob buyer .. => some buyer
  | acceptJob provider .. => some provider
  | resolveTimeoutSettle payer .. | resolveTimeoutRefund payer .. | expireUnfunded payer ..
  | expireUnaccepted payer .. => some payer
  | submitReceipt .. => none

/-- The accounts that the instruction takes, in their order. -/
def layout : Ask → List Slot
  | initializeConfig admin _ =>
    [.new (.key admin) true, .new .config false, .newReadonly (.key systemProgramId) false]
  | setPaused admin _ => [.newReadonly (.key admin) true, .new .config false]
  | registerProvider authority =>
    [.new (.key authority) true, .newReadonly .config false, .new (.provider authority) false,
      .newReadonly (.key systemProgramId) false]
  | addExecutionKey authority _ | revokeExecutionKey authority _ =>
    [.newReadonly (.key authority) true, .new (.provider authority) false]
  | depositBond authority mint _ =>
    [.new (.key authority) true, .newReadonly .config false,
      .newReadonly (.provider authority) false, .new (.bond authority mint) false,
      .new (.ata (.bond authority mint) mint) false, .new (.ata (.key authority) mint) false,
      .newReadonly (.key mint) false, .newReadonly (.key tokenProgramId) false,
      .newReadonly (.key systemProgramId) false]
  | withdrawBond authority mint _ =>
    [.newReadonly (.key authority) true, .new (.bond authority mint) false,
      .new (.ata (.bond authority mint) mint) false, .new (.ata (.key authority) mint) false,
      .newReadonly (.key mint) false, .newReadonly (.key tokenProgramId) false]
  | createJob buyer provider _ payload =>
    [.new (.key buyer) true, .newReadonly .config false, .newReadonly (.provider provider) false,
      .new (.job buyer provider payload.jobNonce) false, .newReadonly (.key systemProgramId) false]
  | fundJob buyer provider mint nonce =>
    [.newReadonly (.key buyer) true, .newReadonly .config false,
      .new (.job buyer provider nonce) false, .new (.ata (.key buyer) mint) false,
      .new (.ata (.job buyer provider nonce) mint) false, .newReadonly (.key mint) false,
      .newReadonly (.key tokenProgramId) false]
  | acceptJob provider buyer mint nonce =>
    [.newReadonly (.key provider) true, .newReadonly .config false,
      .newReadonly (.provider provider) false, .new (.bond provider mint) false,
      .new (.job buyer provider nonce) false]
  | acceptWork buyer provider mint nonce =>
    [.newReadonly (.key buyer) true, .new (.job buyer provider nonce) false,
      .new (.bond provider mint) false, .new (.ata (.job buyer provider nonce) mint) false,
      .new (.ata (.key provider) mint) false, .new (.ata (.key buyer) mint) false,
      .newReadonly (.key mint) false, .newReadonly (.key tokenProgramId) false]
  | challengeWork buyer provider nonce _ =>
    [.new (.key buyer) true, .newReadonly .config false, .new (.job buyer provider nonce) false,
      .new (.challenge (.job buyer provider nonce)) false,
      .newReadonly (.key systemProgramId) false]
  | resolveTimeoutSettle payer buyer provider mint nonce withChallenge =>
    [.newReadonly (.key payer) true, .new (.job buyer provider nonce) false,
      .new (.bond provider mint) false, .new (.ata (.job buyer provider nonce) mint) false,
      .new (.ata (.key provider) mint) false, .new (.ata (.key buyer) mint) false,
      .new (.key buyer) false, .newReadonly (.key mint) false,
      .newReadonly (.key tokenProgramId) false] ++
      if withChallenge then [.new (.challenge (.job buyer provider nonce)) false] else []
  | resolveTimeoutRefund payer buyer provider mint nonce
  | expireUnaccepted payer buyer provider mint nonce =>
    [.newReadonly (.key payer) true, .new (.job buyer provider nonce) false,
      .new (.bond provider mint) false, .new (.ata (.job buyer provider nonce) mint) false,
      .new (.ata (.key buyer) mint) false, .new (.key buyer) false, .newReadonly (.key mint) false,
      .newReadonly (.key tokenProgramId) false]
  | expireUnfunded payer buyer provider nonce =>
    [.newReadonly (.key payer) true, .new (.job buyer provider nonce) false]
  | slashBond admin buyer provider mint nonce =>
    [.newReadonly (.key admin) true, .newReadonly .config false,
      .new (.job buyer provider nonce) false, .new (.bond provider mint) false,
      .new (.ata (.bond provider mint) mint) false,
      .new (.ata (.job buyer provider nonce) mint) false, .new (.ata (.key buyer) mint) false,
      .new (.key buyer) false, .new (.challenge (.job buyer provider nonce)) false,
      .newReadonly (.key mint) false, .newReadonly (.key tokenProgramId) false]
  | closeJob buyer provider mint nonce includeEscrow =>
    [.newReadonly (.key buyer) true, .new (.job buyer provider nonce) false,
      .new (.key buyer) false] ++
      if includeEscrow then [.new (.ata (.job buyer provider nonce) mint) false,
        .newReadonly (.key tokenProgramId) false]
      else []
  | submitReceipt job provider .. =>
    [.newReadonly .config false, .newReadonly (.provider provider) false, .new (.key job) false,
      .newReadonly (.key instructionsSysvarId) false]

theorem filter_layout (ask : Ask) : (ask.layout.filter (·.isSigner)).map (·.role) =
    ask.signer.toList.map .key := by
  cases ask with
  | resolveTimeoutSettle _ _ _ _ _ withChallenge => cases withChallenge <;> rfl
  | closeJob _ _ _ _ includeEscrow => cases includeEscrow <;> rfl
  | _ => rfl

end Ask

section Signers

variable {P : Platform} {programId : Pubkey} {layout : List Slot} {accounts : List AccountMeta}
  {ask : Ask}

theorem Lists.signed_iff (h : Lists P programId layout accounts) (k : Pubkey) :
    (∃ m ∈ accounts, m.isSigner = true ∧ m.key = k) ↔
      ∃ r ∈ (layout.filter (·.isSigner)).map (·.role), r.address P programId = some k := by
  induction h with
  | nil => simp
  | @cons s m layout accounts hs _ ih =>
    obtain ⟨key, hkey, rfl⟩ := Option.map_eq_some_iff.mp hs
    simp only [List.mem_cons, exists_eq_or_imp, ih, List.filter_cons]
    cases s.isSigner with
    | false => simp
    | true => simp [hkey]

/-- The accounts of what is asked are signed by the party that is to sign, and nobody else. -/
theorem Lists.signer_iff (h : Lists P programId ask.layout accounts) (k : Pubkey) :
    (∃ m ∈ accounts, m.isSigner = true ∧ m.key = k) ↔ ask.signer = some k := by
  rw [h.signed_iff, ask.filter_layout]
  cases ask.signer with
  | none => simp
  | some signer => simp

end Signers

end AgentBond
