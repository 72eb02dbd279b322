import AgentBond.Indexer.Types
import AgentBond.Types.Record

/-! # Decoding account updates

An update of an account of the program is turned into the projection of the
record it holds; an account that is gone becomes a tombstone.
-/

namespace AgentBond.Indexer

open Foundation

/-- The name of a job state. -/
def jobStateName : JobState → String
  | .created => "Created"
  | .funded => "Funded"
  | .accepted => "Accepted"
  | .submitted => "Submitted"
  | .challenged => "Challenged"
  | .settled => "Settled"
  | .refunded => "Refunded"
  | .expired => "Expired"
  | .slashed => "Slashed"

def configPayload (c : ConfigAccount) : ProjectionPayload :=
  .config { paused := c.paused, admin := c.admin, genesisHash := c.genesisHash,
            allowedMint := c.allowedMint, tokenProgram := c.tokenProgram,
            mintDecimals := c.mintDecimals, minProviderBond := c.minProviderBond,
            challengeDurationSeconds := c.challengeDurationSeconds.toUInt64 }

def providerPayload (p : ProviderAccount) : ProjectionPayload :=
  .provider { authority := p.authority,
              status := if p.status = providerStatusActive then "Active" else "Inactive",
              executionKeyCount := p.executionKeyCount }

def bondPayload (b : ProviderBondAccount) : ProjectionPayload :=
  .providerBond { authority := b.provider, mint := b.mint, deposited := b.deposited,
                  locked := b.locked }

def jobPayload (j : JobAccount) : ProjectionPayload :=
  .job { buyer := j.buyer, provider := j.provider, mint := j.mint, tokenProgram := j.tokenProgram,
         amount := j.amount, jobNonce := j.jobNonce, state := jobStateName j.state,
         fundDeadline := j.fundDeadline, acceptDeadline := j.acceptDeadline,
         workDeadline := j.workDeadline, autoSettleDeadline := j.autoSettleDeadline,
         requestHash := j.requestHash, receiptDigest := j.receiptDigest, lockedBond := j.lockedBond,
         mintDecimals := j.mintDecimals }

def challengePayload (c : ChallengeAccount) : ProjectionPayload :=
  .challenge { job := c.job, buyer := c.buyer, reasonHash := c.reasonHash,
               bondAmount := c.bondAmount, deadline := c.deadline,
               status := if c.status = ChallengeAccount.statusOpen then "Open" else "Resolved" }

/-- The first kind whose length and layout the data has. -/
def tryDecodePayload (data : List UInt8) : Option ProjectionPayload :=
  (if data.length = configAccountLen then
      (ConfigAccount.decode data).toOption.map configPayload else none) <|>
  (if data.length = providerAccountLen then
      (ProviderAccount.decode data).toOption.map providerPayload else none) <|>
  (if data.length = providerBondAccountLen then
      (ProviderBondAccount.decode data).toOption.map bondPayload else none) <|>
  (if data.length = jobAccountLen then
      (JobAccount.decode data).toOption.map jobPayload else none) <|>
  (if data.length = challengeAccountLen then
      (ChallengeAccount.decode data).toOption.map challengePayload else none)

def tryDecodeOwned (data : List UInt8) (address : Pubkey) (slot writeVersion : UInt64) :
    Option DecodedProjection :=
  (tryDecodePayload data).map fun payload =>
    { kind := payload.kind, address, slot, writeVersion, payload }

structure AccountDecodeInput where
  program : Pubkey
  address : Pubkey
  slot : UInt64
  writeVersion : UInt64
  owner : Option Pubkey
  lamports : UInt64
  data : Option (List UInt8)
  deleted : Bool
  commitment : Commitment

def AccountDecodeInput.raw (input : AccountDecodeInput) : RawAccountVersion :=
  { address := input.address, slot := input.slot, writeVersion := input.writeVersion,
    owner := input.owner, lamports := input.lamports, executable := false, data := input.data,
    deleted := input.deleted, commitment := input.commitment }

def decodeAccountUpdate (input : AccountDecodeInput) : AccountUpdate :=
  { raw := input.raw
    projection :=
      if input.deleted = true ∨ (input.data.map List.isEmpty).getD true = true then
        some { kind := .tombstone, address := input.address, slot := input.slot,
               writeVersion := input.writeVersion, payload := .tombstone }
      else if input.owner = some input.program then
        tryDecodeOwned (input.data.getD []) input.address input.slot input.writeVersion
      else none }

variable {data : List UInt8}

/-- The payload of a record. -/
def recordPayload : Record → ProjectionPayload
  | .config c => configPayload c
  | .provider p => providerPayload p
  | .bond b => bondPayload b
  | .job j => jobPayload j
  | .challenge c => challengePayload c

theorem toOption_of_byteAt {α : Type} {d : UInt8} {r : Except ProtocolError α}
    (h : ∀ a, r = .ok a → byteAt data 0 = d) (hd : byteAt data 0 ≠ d) : r.toOption = none := by
  rw [Option.eq_none_iff_forall_ne_some]
  intro a ha
  exact hd (h a (Record.toOption_eq_some.mp ha))

theorem tryDecodePayload_of_record {r : Record} (h : Record.decode data = some r) :
    tryDecodePayload data = some (recordPayload r) := by
  cases r with
  | config c =>
    have hd := Record.decode_eq_config.mp h
    rw [tryDecodePayload, if_pos (ConfigAccount.of_decode hd).1, hd]
    rfl
  | provider p =>
    have hd := Record.decode_eq_provider.mp h
    obtain ⟨hlen, -⟩ := ProviderAccount.of_decode hd
    rw [tryDecodePayload, if_neg (by rw [hlen]; decide), if_pos hlen, hd]
    rfl
  | bond b =>
    have hd := Record.decode_eq_bond.mp h
    obtain ⟨hlen, -⟩ := ProviderBondAccount.of_decode hd
    rw [tryDecodePayload, if_neg (by rw [hlen]; decide), if_neg (by rw [hlen]; decide),
      if_pos hlen, hd]
    rfl
  | job j =>
    have hd := Record.decode_eq_job.mp h
    obtain ⟨hlen, -⟩ := JobAccount.of_decode hd
    rw [tryDecodePayload, if_neg (by rw [hlen]; decide), if_neg (by rw [hlen]; decide),
      if_neg (by rw [hlen]; decide), if_pos hlen, hd]
    rfl
  | challenge c =>
    have hd := Record.decode_eq_challenge.mp h
    obtain ⟨hlen, hbyte⟩ := ChallengeAccount.of_decode hd
    -- A bond has the same length.
    have hbond : (ProviderBondAccount.decode data).toOption = none :=
      toOption_of_byteAt (fun b hb => (ProviderBondAccount.of_decode hb).2)
        (by rw [hbyte]; decide)
    have hlen' : data.length = providerBondAccountLen := hlen
    rw [tryDecodePayload, if_neg (by rw [hlen]; decide), if_neg (by rw [hlen]; decide),
      if_pos hlen', hbond, if_neg (by rw [hlen]; decide), if_pos hlen, hd]
    rfl

end AgentBond.Indexer
