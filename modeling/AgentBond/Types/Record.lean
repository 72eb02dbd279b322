import AgentBond.Types.Codec
import AgentBond.Types.Pda

/-! # Records

A program-owned account holds at most one record: the discriminator of its data
names the only decoder that can accept it.
-/

namespace AgentBond

open Foundation

/-- What a program-owned account holds. -/
inductive Record
  | config (c : ConfigAccount)
  | provider (p : ProviderAccount)
  | bond (b : ProviderBondAccount)
  | job (j : JobAccount)
  | challenge (c : ChallengeAccount)
  deriving DecidableEq

namespace Record

/-- The record with the discriminator the data starts with. -/
def decode (data : List UInt8) : Option Record :=
  match (byteAt data 0).toNat with
  | 1 => (ConfigAccount.decode data).toOption.map .config
  | 2 => (ProviderAccount.decode data).toOption.map .provider
  | 3 => (ProviderBondAccount.decode data).toOption.map .bond
  | 4 => (JobAccount.decode data).toOption.map .job
  | 5 => (ChallengeAccount.decode data).toOption.map .challenge
  | _ => none

/-- The seeds of the address a record lives at. -/
def seeds : Record → Seeds
  | config _ => configSeedParts
  | provider p => providerSeedParts p.authority
  | bond b => bondSeedParts b.provider b.mint
  | job j => jobSeedParts j.buyer j.provider j.jobNonce
  | challenge c => challengeSeedParts c.job

def bump : Record → UInt8
  | config c => c.bump
  | provider p => p.bump
  | bond b => b.bump
  | job j => j.bump
  | challenge c => c.bump

variable {data : List UInt8}

theorem toOption_eq_some {α : Type} {r : Except ProtocolError α} {a : α} :
    r.toOption = some a ↔ r = .ok a := by
  cases r <;> simp [Except.toOption]

theorem decode_eq_config {c : ConfigAccount} :
    decode data = some (.config c) ↔ ConfigAccount.decode data = .ok c := by
  constructor
  · intro h
    unfold decode at h
    split at h <;> simp_all [toOption_eq_some]
  · intro h
    simp [decode, (ConfigAccount.of_decode h).2, configAccountDiscriminator, toOption_eq_some, h]

theorem decode_eq_provider {p : ProviderAccount} :
    decode data = some (.provider p) ↔ ProviderAccount.decode data = .ok p := by
  constructor
  · intro h
    unfold decode at h
    split at h <;> simp_all [toOption_eq_some]
  · intro h
    simp [decode, (ProviderAccount.of_decode h).2, providerAccountDiscriminator, toOption_eq_some,
      h]

theorem decode_eq_bond {b : ProviderBondAccount} :
    decode data = some (.bond b) ↔ ProviderBondAccount.decode data = .ok b := by
  constructor
  · intro h
    unfold decode at h
    split at h <;> simp_all [toOption_eq_some]
  · intro h
    simp [decode, (ProviderBondAccount.of_decode h).2, providerBondAccountDiscriminator,
      toOption_eq_some, h]

theorem decode_eq_job {j : JobAccount} :
    decode data = some (.job j) ↔ JobAccount.decode data = .ok j := by
  constructor
  · intro h
    unfold decode at h
    split at h <;> simp_all [toOption_eq_some]
  · intro h
    simp [decode, (JobAccount.of_decode h).2, jobAccountDiscriminator, toOption_eq_some, h]

theorem decode_eq_challenge {c : ChallengeAccount} :
    decode data = some (.challenge c) ↔ ChallengeAccount.decode data = .ok c := by
  constructor
  · intro h
    unfold decode at h
    split at h <;> simp_all [toOption_eq_some]
  · intro h
    simp [decode, (ChallengeAccount.of_decode h).2, challengeAccountDiscriminator,
      toOption_eq_some, h]

/-- Zeroed data holds no record. -/
theorem decode_of_zeroed (h : ∀ b ∈ data, b = 0) : decode data = none := by
  have h0 : byteAt data 0 = 0 := by
    cases data with
    | nil => rfl
    | cons b rest => exact h b List.mem_cons_self
  simp [decode, h0]

end Record

end AgentBond
