import AgentBond.Foundation.Contracts
import AgentBond.Foundation.Json
import AgentBond.Sdk.Submit

/-! # Sending a plan

The client asks a node which chain it is on and what time it is, checks the
plan, signs it, has the node simulate the transaction, sends it and asks for its
status until it is confirmed. The node answers what it likes.
-/

namespace AgentBond

open Foundation

inductive SendError
  | rpc (text : String)
  | sdk (e : SdkError)
  deriving DecidableEq

abbrev Sent (α : Type) := Except SendError α

inductive ClusterKind
  | mainnetBeta
  | devnet
  | testnet
  | localOrUnknown
  deriving DecidableEq

def ClusterKind.text : ClusterKind → String
  | mainnetBeta => "MainnetBeta"
  | devnet => "Devnet"
  | testnet => "Testnet"
  | localOrUnknown => "LocalOrUnknown"

def mainnetGenesisHash : Text := "5eykt4UsLoyBJaSfb9PRppPPjqSV4kt3Kg8ndRVYMQ".toList

def clusterFromGenesisHash (genesis : Text) : ClusterKind :=
  if genesis = mainnetGenesisHash then .mainnetBeta
  else if genesis = "EtWTRABZaYq6iMfeYKouRu166VU2xqa1wcaWoxPkrZBG".toList then .devnet
  else if genesis = "4uhcVJyU9pJkvQyS88uRDiswHXSCkY3zQawwpjk2NsNY".toList then .testnet
  else .localOrUnknown

structure SimulateOutcome where
  err : Option Json

structure StatusValue where
  confirmationStatus : Option Text
  err : Option Json

/-- The calls on the node, and those on the clock. -/
inductive RpcCall (Tx : Type)
  | getGenesisHash
  | getSlot
  | getBlockTime (slot : UInt64)
  | getLatestBlockhash
  | simulateTransaction (tx : Tx)
  | sendTransaction (tx : Tx)
  | getSignatureStatuses (signature : Text)
  | elapsed
  | sleep (interval : ℕ)

@[reducible] def RpcCall.Reply {Tx : Type} : RpcCall Tx → Type
  | getGenesisHash | getLatestBlockhash => Sent Text
  | getSlot => Sent UInt64
  | getBlockTime _ => Sent (Option Int64)
  | simulateTransaction _ => Sent SimulateOutcome
  | sendTransaction _ => Sent Text
  | getSignatureStatuses _ => Sent (Option (List (Option StatusValue)))
  | elapsed => ℕ
  | sleep _ => Unit

/-- Calls on the node go over the network. -/
def RpcCall.Remote {Tx : Type} : RpcCall Tx → Prop
  | elapsed | sleep _ => False
  | _ => True

instance {Tx : Type} : DecidablePred (@RpcCall.Remote Tx) := fun c =>
  match c with
  | .elapsed | .sleep _ => inferInstanceAs (Decidable False)
  | .getGenesisHash | .getSlot | .getBlockTime _ | .getLatestBlockhash | .simulateTransaction _
  | .sendTransaction _ | .getSignatureStatuses _ => inferInstanceAs (Decidable True)

abbrev RpcProgram (Tx α : Type) := Prog (RpcCall Tx) RpcCall.Reply α

structure ConfirmPolicy where
  deadline : ℕ
  pollInterval : ℕ
  maxAttempts : ℕ

/-- Milliseconds. -/
def ConfirmPolicy.production (deadline : ℕ) : ConfirmPolicy :=
  { deadline, pollInterval := 400, maxAttempts := 20 }

structure SubmitResult where
  signature : Text
  status : Text
  cluster : String
  genesisHash : Text
  deriving DecidableEq

section Client

variable {Tx : Type}

def getUnixTimestamp {α : Type} (next : Int64 → RpcProgram Tx (Sent α)) : RpcProgram Tx (Sent α) :=
  .call .getSlot fun
    | .error e => .done (.error e)
    | .ok slot => .call (.getBlockTime slot) fun
      | .error e => .done (.error e)
      | .ok none => .done (.error (.rpc "block time unavailable"))
      | .ok (some now) => next now

def deadlineExceeded : SendError := .rpc "confirmation deadline exceeded"

/-- The status of the only signature that was asked for. -/
def headStatus (value : Option (List (Option StatusValue))) : Option StatusValue :=
  (value.bind List.head?).join

/-- Ask for the status while attempts are left. -/
def confirmSignature (policy : ConfirmPolicy) (signature : Text) : ℕ → RpcProgram Tx (Sent Text)
  | 0 => .call .elapsed fun _ => .done (.error deadlineExceeded)
  | attempts + 1 => .call .elapsed fun elapsed =>
    if policy.deadline < elapsed then .done (.error deadlineExceeded)
    else .call (.getSignatureStatuses signature) fun
      | .error e => .done (.error e)
      | .ok value =>
        let again := .call (.sleep policy.pollInterval) fun _ =>
          confirmSignature policy signature attempts
        match headStatus value with
        | none => again
        | some status =>
          match status.err, status.confirmationStatus with
          | some err, _ => .done (.error (.rpc ("transaction failed: " ++ String.ofList err.write)))
          | none, some cs =>
            if cs = "confirmed".toList ∨ cs = "finalized".toList then .done (.ok cs) else again
          | none, none => again

def checkPresent (present signers : List Text) : Sent Unit :=
  forM signers fun required => ensure (present.contains required = true)
    (.sdk (.invalidInput ("missing required signer " ++ String.ofList required)))

variable (sign : List ChainInstruction → Pubkey → List Pubkey → Bytes 32 → Except String Tx)
  (plan : InstructionPlan) (expectedProgram payer : Pubkey) (extraSigners : List Pubkey)
  (allowMainnet : Bool) (confirm : ConfirmPolicy)

/-- The payer comes first, and once. -/
def allSigners : List Pubkey := payer :: extraSigners.filter fun k => k ≠ payer

/-- The transaction of a plan that has passed the check, with a recent blockhash. -/
def signPlan (blockhash : Text) : Sent Tx := do
  let blockhash ← okOr (Base58.decodeKey blockhash) (.rpc "bad blockhash")
  let ixs ← plan.toSolanaInstructions.mapError .sdk
  checkPresent ((allSigners payer extraSigners).map keyToText) plan.requiredSigners
  (sign ixs payer (allSigners payer extraSigners) blockhash).mapError fun e =>
    .sdk (.invalidInput ("signing failed: " ++ e))

def sendSigned (genesis : Text) (tx : Tx) : RpcProgram Tx (Sent SubmitResult) :=
  .call (.simulateTransaction tx) fun
    | .error e => .done (.error e)
    | .ok sim =>
      match sim.err with
      | some err => .done (.error (.rpc ("simulation failed: " ++ String.ofList err.write)))
      | none => .call (.sendTransaction tx) fun
        | .error e => .done (.error e)
        | .ok signature =>
          (confirmSignature confirm signature confirm.maxAttempts).bind fun
            | .error e => .done (.error e)
            | .ok status => .done (.ok
              { signature, status, cluster := (clusterFromGenesisHash genesis).text,
                genesisHash := genesis })

def simulateAndSendPlan : RpcProgram Tx (Sent SubmitResult) :=
  .call .getGenesisHash fun
    | .error e => .done (.error e)
    | .ok genesis =>
      if clusterFromGenesisHash genesis = .mainnetBeta ∧ allowMainnet = false then
        .done (.error (.sdk (.invalidInput "mainnet blocked without --allow-mainnet")))
      else getUnixTimestamp fun now =>
        match validatePlanInstructions plan expectedProgram now with
        | .error e => .done (.error (.sdk e))
        | .ok () => .call .getLatestBlockhash fun
          | .error e => .done (.error e)
          | .ok blockhash =>
            match signPlan sign plan payer extraSigners blockhash with
            | .error e => .done (.error e)
            | .ok tx => sendSigned confirm genesis tx

end Client

/-- What has been asked of a node, and what it has answered. -/
abbrev Exchanges (Tx : Type) := List (Exchange (RpcCall Tx) RpcCall.Reply)

section Safety

variable {Tx : Type}

/-- No transaction has been sent. -/
def Unsent (h : Exchanges Tx) : Prop := ∀ tx r, ⟨.sendTransaction tx, r⟩ ∉ h

def RpcCall.isPoll : RpcCall Tx → Bool
  | getSignatureStatuses _ => true
  | _ => false

/-- How often the status has been asked for. -/
def polls (h : Exchanges Tx) : ℕ := h.countP fun x => x.1.isPoll

theorem polls_snoc {h : Exchanges Tx} {c : RpcCall Tx} {r : c.Reply} :
    polls (h ++ [⟨c, r⟩]) = polls h + c.isPoll.toNat := by
  rw [polls, List.countP_append, List.countP_singleton, polls]
  cases c.isPoll <;> rfl

theorem clusterFromGenesisHash_eq_mainnetBeta {genesis : Text} :
    clusterFromGenesisHash genesis = .mainnetBeta ↔ genesis = mainnetGenesisHash := by
  constructor
  · intro h
    by_contra hne
    rw [clusterFromGenesisHash, if_neg hne] at h
    split at h
    · cases h
    · split at h <;> cases h
  · intro h
    exact if_pos h

/-- The hash that the client holds for the main network is no hash of 32 bytes, so a node that
answers with the hash of its genesis block is never taken to be on the main network. -/
theorem mainnet_never_detected (hash : Pubkey) :
    clusterFromGenesisHash (keyToText hash) ≠ .mainnetBeta := by
  rw [Ne, clusterFromGenesisHash_eq_mainnetBeta]
  intro h
  have hnone : Base58.decodeKey mainnetGenesisHash = none := by decide +kernel
  have hsome : Base58.decodeKey (keyToText hash) = some hash := Base58.decodeKey_encode _
  rw [h, hnone] at hsome
  cases hsome

/-- Unless it is allowed, no node has answered the hash that the client holds for the main
network. -/
def OffMainnet (allowMainnet : Bool) (h : Exchanges Tx) : Prop :=
  allowMainnet = true ∨ ⟨.getGenesisHash, .ok mainnetGenesisHash⟩ ∉ h

/-- The transaction is the plan's: the plan passes the check at the time of the node, the keys it
requires are there, and they have signed its instructions with a blockhash of the node. -/
structure SignedPlan
    (sign : List ChainInstruction → Pubkey → List Pubkey → Bytes 32 → Except String Tx)
    (plan : InstructionPlan) (program payer : Pubkey) (extraSigners : List Pubkey)
    (h : Exchanges Tx) (tx : Tx) : Prop where
  checked : ∃ slot now ixs, ⟨.getBlockTime slot, .ok (some now)⟩ ∈ h ∧
    CheckedPlan plan program now ixs ∧ ∃ text blockhash, ⟨.getLatestBlockhash, .ok text⟩ ∈ h ∧
      Base58.decodeKey text = some blockhash ∧
      sign ixs payer (allSigners payer extraSigners) blockhash = .ok tx
  present : ∀ required ∈ plan.requiredSigners, ∃ k ∈ payer :: extraSigners, keyToText k = required

/-- A transaction may be sent: none has been, and the node has simulated this one. -/
structure Cleared (allowMainnet : Bool) (h : Exchanges Tx) (tx : Tx) : Prop where
  unsent : Unsent h
  network : OffMainnet allowMainnet h
  simulated : ∃ sim, ⟨.simulateTransaction tx, .ok sim⟩ ∈ h ∧ sim.err = none

/-- The node has given the signature when the transaction was sent, and then this status for it. -/
structure Confirmed (h : Exchanges Tx) (result : SubmitResult) : Prop where
  genesis : ⟨.getGenesisHash, .ok result.genesisHash⟩ ∈ h
  cluster : result.cluster = (clusterFromGenesisHash result.genesisHash).text
  sent : ∃ tx, ⟨.sendTransaction tx, .ok result.signature⟩ ∈ h
  status : ∃ value, ⟨.getSignatureStatuses result.signature, .ok value⟩ ∈ h ∧
    headStatus value = some ⟨some result.status, none⟩
  final : result.status = "confirmed".toList ∨ result.status = "finalized".toList

variable (sign : List ChainInstruction → Pubkey → List Pubkey → Bytes 32 → Except String Tx)
  (plan : InstructionPlan) (program payer : Pubkey) (extraSigners : List Pubkey)
  (allowMainnet : Bool) (confirm : ConfirmPolicy)

/-- The client sends a transaction only when it is cleared and the plan's, asks for the status of
the transaction it has sent only, and not too often, and reports what the node has confirmed. -/
def sendContract : Contract (RpcCall Tx) RpcCall.Reply (Sent SubmitResult) where
  calls h
    | .sendTransaction tx => Cleared allowMainnet h tx ∧
        SignedPlan sign plan program payer extraSigners h tx
    | .getSignatureStatuses signature => polls h < confirm.maxAttempts ∧
        ∃ tx, ⟨.sendTransaction tx, .ok signature⟩ ∈ h
    | _ => True
  result h r := ∀ result, r = .ok result → Confirmed h result

variable {sign plan program payer extraSigners allowMainnet confirm} {h : Exchanges Tx}

theorem confirmSignature_keeps {K : Contract (RpcCall Tx) RpcCall.Reply (Sent Text)}
    {signature : Text} {attempts : ℕ} {P : Exchanges Tx → Prop}
    (hcalls : ∀ h, P h → polls h < confirm.maxAttempts →
      K.calls h (.getSignatureStatuses signature)) (helapsed : ∀ h, K.calls h .elapsed)
    (hsleep : ∀ h, K.calls h (.sleep confirm.pollInterval))
    (hP : ∀ h x, P h → P (h ++ [x])) (herror : ∀ h e, K.result h (.error e))
    (hok : ∀ h value cs, P h → ⟨.getSignatureStatuses signature, .ok value⟩ ∈ h →
      headStatus value = some ⟨some cs, none⟩ → cs = "confirmed".toList ∨ cs = "finalized".toList →
      K.result h (.ok cs))
    (hstart : P h) (hpolls : polls h + attempts ≤ confirm.maxAttempts) :
    (confirmSignature confirm signature attempts).Keeps K h := by
  induction attempts generalizing h with
  | zero => exact ⟨helapsed h, fun _ => herror _ _⟩
  | succ attempts ih =>
    refine ⟨helapsed h, fun elapsed => ?_⟩
    dsimp only
    split
    · exact herror _ _
    have hleft : polls (h ++ [⟨.elapsed, elapsed⟩]) < confirm.maxAttempts := by
      simp only [polls_snoc, RpcCall.isPoll, Bool.toNat_false]
      omega
    refine ⟨hcalls _ (hP _ _ hstart) hleft, fun r => ?_⟩
    cases r with
    | error e => exact herror _ _
    | ok value =>
      have hagain : (Prog.call (RpcCall.sleep confirm.pollInterval) fun _ =>
          confirmSignature confirm signature attempts).Keeps K
          (h ++ [⟨.elapsed, elapsed⟩] ++ [⟨.getSignatureStatuses signature, .ok value⟩]) := by
        refine ⟨hsleep _, fun _ => ih (hP _ _ (hP _ _ (hP _ _ hstart))) ?_⟩
        simp only [polls_snoc, RpcCall.isPoll, Bool.toNat_true, Bool.toNat_false]
        omega
      dsimp only
      split
      · exact hagain
      · rename_i status hstatus
        obtain ⟨cs, err⟩ := status
        cases err with
        | some err => exact herror _ _
        | none =>
          cases cs with
          | none => exact hagain
          | some cs =>
            dsimp only
            split
            · rename_i hfinal
              exact hok _ value cs (hP _ _ (hP _ _ hstart))
                (List.mem_append_right _ List.mem_cons_self) hstatus hfinal
            · exact hagain

theorem Unsent.snoc {c : RpcCall Tx} {r : c.Reply} (hu : Unsent h)
    (hc : ∀ tx, c ≠ .sendTransaction tx) : Unsent (h ++ [⟨c, r⟩]) := by
  intro tx r' hr
  rcases List.mem_append.mp hr with hr | hr
  · exact hu tx r' hr
  · exact hc tx (congrArg Sigma.fst (List.mem_singleton.mp hr)).symm

theorem OffMainnet.snoc {c : RpcCall Tx} {r : c.Reply} (hn : OffMainnet allowMainnet h)
    (hc : c ≠ .getGenesisHash) : OffMainnet allowMainnet (h ++ [⟨c, r⟩]) := by
  refine hn.imp_right fun hno hg => ?_
  rcases List.mem_append.mp hg with hg | hg
  · exact hno hg
  · exact absurd (congrArg Sigma.fst (List.mem_singleton.mp hg)).symm hc

theorem OffMainnet.genesis {genesis : Text} (hn : OffMainnet allowMainnet h)
    (hmain : ¬ (clusterFromGenesisHash genesis = .mainnetBeta ∧ allowMainnet = false)) :
    OffMainnet allowMainnet (h ++ [⟨.getGenesisHash, .ok genesis⟩]) := by
  rcases hn with hallow | hno
  · exact .inl hallow
  cases hallow : allowMainnet with
  | true => exact .inl rfl
  | false =>
    refine .inr fun hg => ?_
    rcases List.mem_append.mp hg with hg | hg
    · exact hno hg
    · cases List.mem_singleton.mp hg
      exact hmain ⟨clusterFromGenesisHash_eq_mainnetBeta.mpr rfl, hallow⟩

theorem checkPresent_eq_ok {present required : List Text} {u : Unit} :
    checkPresent present required = .ok u ↔ ∀ r ∈ required, r ∈ present := by
  rw [checkPresent]
  induction required with
  | nil => exact iff_of_true rfl fun r hr => by cases hr
  | cons r required ih =>
    rw [List.forM_cons, ensure_bind_eq_ok, List.contains_iff_mem, ih, List.forall_mem_cons]

theorem signPlan_eq_ok {blockhash : Text} {tx : Tx}
    (hs : signPlan sign plan payer extraSigners blockhash = .ok tx) :
    ∃ bytes ixs, Base58.decodeKey blockhash = some bytes ∧ plan.toSolanaInstructions = .ok ixs ∧
      (∀ required ∈ plan.requiredSigners, ∃ k ∈ payer :: extraSigners, keyToText k = required) ∧
      sign ixs payer (allSigners payer extraSigners) bytes = .ok tx := by
  simp only [signPlan, bind_eq_ok, okOr_eq_ok, mapError_eq_ok, checkPresent_eq_ok,
    exists_const] at hs
  obtain ⟨bytes, hbytes, ixs, hixs, hpresent, htx⟩ := hs
  refine ⟨bytes, ixs, hbytes, hixs, fun required hr => ?_, htx⟩
  obtain ⟨k, hk, rfl⟩ := List.mem_map.mp (hpresent required hr)
  rcases List.mem_cons.mp hk with rfl | hk
  · exact ⟨k, List.mem_cons_self, rfl⟩
  · exact ⟨k, List.mem_cons_of_mem _ (List.mem_filter.mp hk).1, rfl⟩

theorem sendSigned_keeps {genesis : Text} {tx : Tx} (hu : Unsent h)
    (hn : OffMainnet allowMainnet h) (hpolls : polls h = 0)
    (hgenesis : ⟨.getGenesisHash, .ok genesis⟩ ∈ h)
    (htx : ∀ h' : Exchanges Tx, h ⊆ h' → SignedPlan sign plan program payer extraSigners h' tx) :
    (sendSigned confirm genesis tx).Keeps
      (sendContract sign plan program payer extraSigners allowMainnet confirm) h := by
  refine ⟨trivial, fun r => ?_⟩
  cases r with
  | error e => exact fun result hr => by cases hr
  | ok sim =>
    dsimp only
    split
    · exact fun result hr => by cases hr
    rename_i hsim
    refine
      ⟨⟨⟨hu.snoc fun tx he => (by cases he), hn.snoc fun he => (by cases he), sim, by simp, hsim⟩,
      htx _ (List.subset_append_left _ _)⟩, fun r => ?_⟩
    cases r with
    | error e => exact fun result hr => by cases hr
    | ok signature =>
      refine Prog.Keeps.bind (confirmSignature_keeps (P := fun h' =>
        ⟨.getGenesisHash, .ok genesis⟩ ∈ h' ∧ ⟨.sendTransaction tx, .ok signature⟩ ∈ h')
        ?_ (fun _ => trivial) (fun _ => trivial) ?_ ?_ ?_ ?_ ?_)
      · rintro h' ⟨-, hsent⟩ hleft
        exact ⟨hleft, tx, hsent⟩
      · rintro h' x ⟨hg, hsent⟩
        exact ⟨List.mem_append_left _ hg, List.mem_append_left _ hsent⟩
      · exact fun h' e result hr => by cases hr
      · rintro h' value cs ⟨hg, hsent⟩ hvalue hstatus hfinal result hr
        cases hr
        exact ⟨hg, rfl, ⟨tx, hsent⟩, ⟨value, hvalue, hstatus⟩, hfinal⟩
      · exact ⟨by simp [hgenesis], by simp⟩
      · simp only [polls_snoc, RpcCall.isPoll, Bool.toNat_false, hpolls]
        omega

theorem getUnixTimestamp_keeps {α : Type} {K : Contract (RpcCall Tx) RpcCall.Reply (Sent α)}
    {next : Int64 → RpcProgram Tx (Sent α)} (hslot : K.calls h .getSlot)
    (htime : ∀ slot, K.calls (h ++ [⟨.getSlot, .ok slot⟩]) (.getBlockTime slot))
    (herror : ∀ h e, K.result h (.error e))
    (hnext : ∀ slot now, (next now).Keeps K
      (h ++ [⟨.getSlot, .ok slot⟩] ++ [⟨.getBlockTime slot, .ok (some now)⟩])) :
    (getUnixTimestamp next).Keeps K h := by
  refine ⟨hslot, fun r => ?_⟩
  cases r with
  | error e => exact herror _ _
  | ok slot =>
    refine ⟨htime slot, fun r => ?_⟩
    cases r with
    | error e => exact herror _ _
    | ok time =>
      cases time with
      | none => exact herror _ _
      | some now => exact hnext slot now

/-- Whatever the node answers, the client keeps its contract. -/
theorem simulateAndSendPlan_keeps (hu : Unsent h) (hn : OffMainnet allowMainnet h)
    (hpolls : polls h = 0) :
    (simulateAndSendPlan sign plan program payer extraSigners allowMainnet confirm).Keeps
      (sendContract sign plan program payer extraSigners allowMainnet confirm) h := by
  refine ⟨trivial, fun r => ?_⟩
  cases r with
  | error e => exact fun result hr => by cases hr
  | ok genesis =>
    dsimp only
    split
    · exact fun result hr => by cases hr
    rename_i hmain
    have hn' := hn.genesis hmain
    refine getUnixTimestamp_keeps trivial (fun _ => trivial) (fun _ _ _ hr => by cases hr) ?_
    intro slot now
    split
    · exact fun result hr => by cases hr
    rename_i hvalid
    refine ⟨trivial, fun r => ?_⟩
    cases r with
    | error e => exact fun result hr => by cases hr
    | ok blockhash =>
      dsimp only
      split
      · exact fun result hr => by cases hr
      rename_i tx htx
      obtain ⟨bytes, ixs, hbytes, hixs, hpresent, hsigned⟩ := signPlan_eq_ok htx
      obtain ⟨ixs', hchecked⟩ := validatePlanInstructions_eq_ok.mp hvalid
      cases hixs.symm.trans hchecked.instructions
      refine sendSigned_keeps ?_ ?_ ?_ (by simp) fun h' hsub => ?_
      · exact (((hu.snoc fun _ he => by cases he).snoc fun _ he => by cases he).snoc
          fun _ he => by cases he).snoc fun _ he => by cases he
      · exact ((hn'.snoc fun he => by cases he).snoc fun he => by cases he).snoc
          fun he => by cases he
      · simp only [polls_snoc, RpcCall.isPoll, Bool.toNat_false, hpolls]
      · exact ⟨⟨slot, now, ixs, hsub (by simp), hchecked, blockhash, bytes, hsub (by simp), hbytes,
          hsigned⟩, hpresent⟩

end Safety

end AgentBond
