import AgentBond.Types.Accounts

/-! # Program-derived addresses

The seeds of each account of the program. The bump is appended as a last seed.
-/

namespace AgentBond

open Foundation

/-- A seed is a byte string; an address is derived from a list of them. -/
abbrev Seeds := List (List UInt8)

/-- The bytes of `config`. -/
def configSeed : List UInt8 := [0x63, 0x6f, 0x6e, 0x66, 0x69, 0x67]

/-- The bytes of `provider`. -/
def providerSeed : List UInt8 := [0x70, 0x72, 0x6f, 0x76, 0x69, 0x64, 0x65, 0x72]

/-- The bytes of `bond`. -/
def bondSeed : List UInt8 := [0x62, 0x6f, 0x6e, 0x64]

/-- The bytes of `job`. -/
def jobSeed : List UInt8 := [0x6a, 0x6f, 0x62]

/-- The bytes of `challenge`. -/
def challengeSeed : List UInt8 := [0x63, 0x68, 0x61, 0x6c, 0x6c, 0x65, 0x6e, 0x67, 0x65]

def configSeedParts : Seeds := [configSeed]

def providerSeedParts (authority : Pubkey) : Seeds := [providerSeed, authority.toList]

def bondSeedParts (authority mint : Pubkey) : Seeds := [bondSeed, authority.toList, mint.toList]

def jobSeedParts (buyer provider : Pubkey) (jobNonce : UInt64) : Seeds :=
  [jobSeed, buyer.toList, provider.toList, (u64Bytes jobNonce).toList]

def challengeSeedParts (job : Pubkey) : Seeds := [challengeSeed, job.toList]

end AgentBond
