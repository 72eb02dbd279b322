import AgentBond.Program.Token
import AgentBond.Types.Instruction
import AgentBond.Types.Events

/-! # Processor helpers

Loading and saving the five account kinds, the checks shared by the processors
and the refund of the principal.
-/

namespace AgentBond

open Foundation

variable (P : Platform) (L : Ledger)

/-- Decode the data of an account of the given length. -/
def loadAccount {α : Type} (len : ℕ) (decode : List UInt8 → Except ProtocolError α)
    (m : AccountMeta) : Outcome α := do
  ensure ((L.account m.key).data.len = len) (fail .invalidAccountLength)
  orFail (decode (L.account m.key).data.bytes)

def loadConfig : AccountMeta → Outcome ConfigAccount :=
  loadAccount L configAccountLen ConfigAccount.decode

def loadProvider : AccountMeta → Outcome ProviderAccount :=
  loadAccount L providerAccountLen ProviderAccount.decode

def loadBond : AccountMeta → Outcome ProviderBondAccount :=
  loadAccount L providerBondAccountLen ProviderBondAccount.decode

def loadJob : AccountMeta → Outcome JobAccount :=
  loadAccount L jobAccountLen JobAccount.decode

def loadChallenge : AccountMeta → Outcome ChallengeAccount :=
  loadAccount L challengeAccountLen ChallengeAccount.decode

def saveConfig (m : AccountMeta) (c : ConfigAccount) : Outcome Ledger :=
  writeAccountData L m c.encode

def saveProvider (m : AccountMeta) (p : ProviderAccount) : Outcome Ledger := do
  let data ← orFail p.encode
  writeAccountData L m data

def saveBond (m : AccountMeta) (b : ProviderBondAccount) : Outcome Ledger := do
  let data ← orFail b.encode
  writeAccountData L m data

def saveJob (m : AccountMeta) (j : JobAccount) : Outcome Ledger :=
  writeAccountData L m j.encode

def saveChallenge (m : AccountMeta) (c : ChallengeAccount) : Outcome Ledger := do
  let data ← orFail c.encode
  writeAccountData L m data

def requireNotPaused (c : ConfigAccount) : Outcome Unit :=
  ensure (c.paused = false) (fail .protocolPaused)

def requireAdmin (admin : AccountMeta) (c : ConfigAccount) : Outcome Unit := do
  requireSigner admin
  requireKeysEq admin.key c.admin .unauthorized

def loadValidatedConfig (m : AccountMeta) : Outcome ConfigAccount := do
  requireOwner L m P.programId
  let config ← loadConfig L m
  validateConfigPda P L m config.bump
  .ok config

/-- Config must stay read-only on common job and provider entry paths. -/
def loadValidatedConfigReadonly (m : AccountMeta) : Outcome ConfigAccount := do
  requireReadonly m
  loadValidatedConfig P L m

def loadValidatedProvider (m : AccountMeta) : Outcome ProviderAccount := do
  requireOwner L m P.programId
  let provider ← loadProvider L m
  validateProviderPda P L m provider.authority provider.bump
  .ok provider

def loadValidatedBond (m : AccountMeta) : Outcome ProviderBondAccount := do
  requireOwner L m P.programId
  let bond ← loadBond L m
  validateBondPda P L m bond.provider bond.mint bond.bump
  .ok bond

def loadValidatedJob (m : AccountMeta) : Outcome JobAccount := do
  requireOwner L m P.programId
  let job ← loadJob L m
  validateJobPda P L m job.buyer job.provider job.jobNonce job.bump
  .ok job

def loadValidatedChallenge (m : AccountMeta) (job : Pubkey) : Outcome ChallengeAccount := do
  requireOwner L m P.programId
  let challenge ← loadChallenge L m
  validateChallengePda P L m job challenge.bump
  ensure (challenge.job = job) (fail .invalidPda)
  .ok challenge

def transitionJob (j : JobAccount) (target : JobState) : Outcome JobAccount := do
  orFail (validateTransition j.state target)
  .ok { j with state := target }

/-- Give the job's part of the bond back to the unlocked part. -/
def unlockJobBond (j : JobAccount) (b : ProviderBondAccount) :
    Outcome (JobAccount × ProviderBondAccount) :=
  if j.lockedBond = 0 then .ok (j, b)
  else do
    ensure (j.lockedBond ≤ b.locked) (fail .invalidAccountData)
    let locked ← okOr (checkedSub b.locked j.lockedBond) (fail .mathOverflow)
    .ok ({ j with lockedBond := 0 }, { b with locked })

/-- Send the whole escrow, the principal and any surplus, to the buyer. -/
def refundPrincipalToBuyer (j : JobAccount)
    (jobAccount escrow mint buyerToken tokenProgram : AccountMeta) (decimals : UInt8) :
    Outcome Ledger := do
  requireWritable jobAccount
  requireLegacyTokenProgramId j.tokenProgram
  ensure (tokenProgram.key = j.tokenProgram) (fail .invalidTokenProgram)
  validateMint L mint j.mint decimals
  let _ ← validateAta P L escrow jobAccount.key j.mint
  let _ ← validateAta P L buyerToken j.buyer j.mint
  let token ← parseTokenAccount L escrow
  ensure (j.amount.toNat ≤ token.amount) (fail .escrowUnexpectedBalance)
  transferChecked P L escrow mint buyerToken jobAccount token.amount decimals
    (some (jobSignerSeeds j.buyer j.provider j.jobNonce j.bump))

/-- The address the seeds and the bump of a record derive. -/
def Platform.addressOf (r : Record) : Option Pubkey :=
  P.createProgramAddress (r.seeds ++ [[r.bump]]) P.programId

/-- The seeds of the addresses a ledger is about: those of its records, and of the challenge, the
bond and the escrow of each of its jobs. -/
inductive DerivedIn : Seeds → Prop
  | record {k : Pubkey} {r : Record} (record_at : L.recordAt P.programId k = some r) :
    DerivedIn (r.seeds ++ [[r.bump]])
  | challenge {a k : Pubkey} {j : JobAccount} {bump : UInt8}
      (job_at : L.recordAt P.programId a = some (.job j))
      (find : P.tryFindProgramAddress (challengeSeedParts a) P.programId = some (k, bump)) :
    DerivedIn (challengeSeedParts a ++ [[bump]])
  | bond {a k : Pubkey} {j : JobAccount} {bump : UInt8}
      (job_at : L.recordAt P.programId a = some (.job j))
      (find : P.tryFindProgramAddress (bondSeedParts j.provider j.mint) P.programId =
        some (k, bump)) :
    DerivedIn (bondSeedParts j.provider j.mint ++ [[bump]])
  | escrow {a k : Pubkey} {j : JobAccount} {bump : UInt8}
      (job_at : L.recordAt P.programId a = some (.job j))
      (find : P.tryFindProgramAddress [a.toList, tokenProgramId.toList, j.mint.toList]
        associatedTokenProgramId = some (k, bump)) :
    DerivedIn ([a.toList, tokenProgramId.toList, j.mint.toList] ++ [[bump]])

variable {P} {L} {m : AccountMeta}

theorem AccountData.len_eq_of_bytes {d : AccountData} {n : ℕ} (hn : 0 < n)
    (h : d.bytes.length = n) : d.len = n := by
  cases d with
  | raw bytes => exact h
  | token t => simp only [AccountData.bytes, List.length_nil] at h; omega
  | mint m => simp only [AccountData.bytes, List.length_nil] at h; omega

theorem loadAccount_eq_ok {α : Type} {len : ℕ} {decode : List UInt8 → Except ProtocolError α}
    {a : α} (hn : 0 < len) (hd : ∀ data a, decode data = .ok a → data.length = len) :
    loadAccount L len decode m = .ok a ↔ decode (L.account m.key).data.bytes = .ok a := by
  simp only [loadAccount, bind_eq_ok, ensure_eq_ok, exists_const, orFail_eq_ok]
  exact ⟨And.right, fun h => ⟨AccountData.len_eq_of_bytes hn (hd _ _ h), h⟩⟩

@[simp] theorem loadConfig_eq_ok {c : ConfigAccount} :
    loadConfig L m = .ok c ↔ ConfigAccount.decode (L.account m.key).data.bytes = .ok c :=
  loadAccount_eq_ok (by decide) fun _ _ h => (ConfigAccount.of_decode h).1

@[simp] theorem loadProvider_eq_ok {p : ProviderAccount} :
    loadProvider L m = .ok p ↔ ProviderAccount.decode (L.account m.key).data.bytes = .ok p :=
  loadAccount_eq_ok (by decide) fun _ _ h => (ProviderAccount.of_decode h).1

@[simp] theorem loadBond_eq_ok {b : ProviderBondAccount} :
    loadBond L m = .ok b ↔ ProviderBondAccount.decode (L.account m.key).data.bytes = .ok b :=
  loadAccount_eq_ok (by decide) fun _ _ h => (ProviderBondAccount.of_decode h).1

@[simp] theorem loadJob_eq_ok {j : JobAccount} :
    loadJob L m = .ok j ↔ JobAccount.decode (L.account m.key).data.bytes = .ok j :=
  loadAccount_eq_ok (by decide) fun _ _ h => (JobAccount.of_decode h).1

@[simp] theorem loadChallenge_eq_ok {c : ChallengeAccount} :
    loadChallenge L m = .ok c ↔ ChallengeAccount.decode (L.account m.key).data.bytes = .ok c :=
  loadAccount_eq_ok (by decide) fun _ _ h => (ChallengeAccount.of_decode h).1

theorem recordAt_eq_some {k : Pubkey} {r : Record} :
    L.recordAt P.programId k = some r ↔
      (L.account k).owner = P.programId ∧ Record.decode (L.account k).data.bytes = some r := by
  simp only [Ledger.recordAt]
  split <;> simp [*]

@[simp] theorem loadValidatedConfig_eq_ok {c : ConfigAccount} :
    loadValidatedConfig P L m = .ok c ↔
      L.recordAt P.programId m.key = some (.config c) ∧
        P.addressOf (.config c) = some m.key := by
  simp only [loadValidatedConfig, requireOwner, validateConfigPda, bind_eq_ok, ensure_eq_ok,
    exists_const, loadConfig_eq_ok, validatePda_eq_ok, Except.ok.injEq, recordAt_eq_some,
    Record.decode_eq_config, Platform.addressOf, Record.seeds, Record.bump]
  constructor
  · rintro ⟨ho, c, hc, ⟨ha, -⟩, rfl⟩; exact ⟨⟨ho, hc⟩, ha⟩
  · rintro ⟨⟨ho, hc⟩, ha⟩; exact ⟨ho, c, hc, ⟨ha, ho⟩, rfl⟩

@[simp] theorem loadValidatedProvider_eq_ok {p : ProviderAccount} :
    loadValidatedProvider P L m = .ok p ↔
      L.recordAt P.programId m.key = some (.provider p) ∧
        P.addressOf (.provider p) = some m.key := by
  simp only [loadValidatedProvider, requireOwner, validateProviderPda, bind_eq_ok, ensure_eq_ok,
    exists_const, loadProvider_eq_ok, validatePda_eq_ok, Except.ok.injEq, recordAt_eq_some,
    Record.decode_eq_provider, Platform.addressOf, Record.seeds, Record.bump]
  constructor
  · rintro ⟨ho, p, hp, ⟨ha, -⟩, rfl⟩; exact ⟨⟨ho, hp⟩, ha⟩
  · rintro ⟨⟨ho, hp⟩, ha⟩; exact ⟨ho, p, hp, ⟨ha, ho⟩, rfl⟩

@[simp] theorem loadValidatedBond_eq_ok {b : ProviderBondAccount} :
    loadValidatedBond P L m = .ok b ↔
      L.recordAt P.programId m.key = some (.bond b) ∧ P.addressOf (.bond b) = some m.key := by
  simp only [loadValidatedBond, requireOwner, validateBondPda, bind_eq_ok, ensure_eq_ok,
    exists_const, loadBond_eq_ok, validatePda_eq_ok, Except.ok.injEq, recordAt_eq_some,
    Record.decode_eq_bond, Platform.addressOf, Record.seeds, Record.bump]
  constructor
  · rintro ⟨ho, b, hb, ⟨ha, -⟩, rfl⟩; exact ⟨⟨ho, hb⟩, ha⟩
  · rintro ⟨⟨ho, hb⟩, ha⟩; exact ⟨ho, b, hb, ⟨ha, ho⟩, rfl⟩

@[simp] theorem loadValidatedJob_eq_ok {j : JobAccount} :
    loadValidatedJob P L m = .ok j ↔
      L.recordAt P.programId m.key = some (.job j) ∧ P.addressOf (.job j) = some m.key := by
  simp only [loadValidatedJob, requireOwner, validateJobPda, bind_eq_ok, ensure_eq_ok,
    exists_const, loadJob_eq_ok, validatePda_eq_ok, Except.ok.injEq, recordAt_eq_some,
    Record.decode_eq_job, Platform.addressOf, Record.seeds, Record.bump]
  constructor
  · rintro ⟨ho, j, hj, ⟨ha, -⟩, rfl⟩; exact ⟨⟨ho, hj⟩, ha⟩
  · rintro ⟨⟨ho, hj⟩, ha⟩; exact ⟨ho, j, hj, ⟨ha, ho⟩, rfl⟩

@[simp] theorem loadValidatedChallenge_eq_ok {c : ChallengeAccount} {job : Pubkey} :
    loadValidatedChallenge P L m job = .ok c ↔
      L.recordAt P.programId m.key = some (.challenge c) ∧
        P.addressOf (.challenge c) = some m.key ∧ c.job = job := by
  simp only [loadValidatedChallenge, requireOwner, validateChallengePda, bind_eq_ok, ensure_eq_ok,
    exists_const, loadChallenge_eq_ok, validatePda_eq_ok, Except.ok.injEq, recordAt_eq_some,
    Record.decode_eq_challenge, Platform.addressOf, Record.seeds, Record.bump]
  constructor
  · rintro ⟨ho, c, hc, ⟨ha, -⟩, rfl, rfl⟩; exact ⟨⟨ho, hc⟩, ha, rfl⟩
  · rintro ⟨⟨ho, hc⟩, ha, rfl⟩; exact ⟨ho, c, hc, ⟨ha, ho⟩, rfl, rfl⟩

@[simp] theorem transitionJob_eq_ok {j j' : JobAccount} {target : JobState} :
    transitionJob j target = .ok j' ↔
      validateTransition j.state target = .ok () ∧ { j with state := target } = j' := by
  simp only [transitionJob, bind_eq_ok, orFail_eq_ok, Except.ok.injEq]
  constructor
  · rintro ⟨_, h⟩
    exact h
  · intro h
    exact ⟨(), h⟩

/-- Unlocking moves exactly the job's share, which the bond must cover. -/
theorem unlockJobBond_eq_ok {j j' : JobAccount} {b b' : ProviderBondAccount} :
    unlockJobBond j b = .ok (j', b') ↔
      j.lockedBond ≤ b.locked ∧ { j with lockedBond := 0 } = j' ∧
        { b with locked := b.locked - j.lockedBond } = b' := by
  obtain ⟨bump, state, buyer, provider, mint, tokenProgram, amount, jobNonce, fundDeadline,
    acceptDeadline, workDeadline, autoSettleDeadline, receiptDigest, requestHash, lockedBond,
    mintDecimals⟩ := j
  unfold unlockJobBond
  split
  · rename_i h
    obtain rfl : lockedBond = 0 := h
    simp
  · simp only [bind_eq_ok, ensure_eq_ok, exists_const, okOr_eq_ok, checkedSub,
      Option.ite_none_right_eq_some, Option.some.injEq, Except.ok.injEq, Prod.mk.injEq]
    constructor
    · rintro ⟨hle, _, ⟨-, rfl⟩, rfl, rfl⟩; exact ⟨hle, rfl, rfl⟩
    · rintro ⟨hle, rfl, rfl⟩; exact ⟨hle, _, ⟨hle, rfl⟩, rfl, rfl⟩

end AgentBond
