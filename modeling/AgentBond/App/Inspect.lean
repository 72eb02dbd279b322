import AgentBond.App.Planner
import AgentBond.Chain.Keys
import AgentBond.Foundation.HexPairs
import AgentBond.Indexer.Decode

/-! # Inspected accounts

A client fetches an account, decodes it as the program would and shows it in
words. It shows an account exactly when the program loads it, and the words say
all that the program loads.
-/

namespace AgentBond

open Foundation Text

section Decoders

variable {α : Type} (P : Platform) (programId address owner : Pubkey) (data : AccountData)

def decodeConfig : Planned ConfigAccount := do
  Decode.requireOwner owner programId
  let expected ← configPda P programId
  Decode.requireAddress address expected.address
  Decode.requireLen data configAccountLen
  (ConfigAccount.decode data.bytes).mapError .decodeFailed

/-- The decoders of the other accounts check the address last: it is derived from what the account
says. -/
def decodeDerived (len : ℕ) (decode : List UInt8 → Except ProtocolError α)
    (pda : α → Planned PdaAddress) : Planned α := do
  Decode.requireOwner owner programId
  Decode.requireLen data len
  let account ← (decode data.bytes).mapError .decodeFailed
  let expected ← pda account
  Decode.requireAddress address expected.address
  .ok account

def decodeProvider : Planned ProviderAccount :=
  decodeDerived programId address owner data providerAccountLen ProviderAccount.decode fun p =>
    providerPda P programId p.authority

def decodeProviderBond : Planned ProviderBondAccount :=
  decodeDerived programId address owner data providerBondAccountLen ProviderBondAccount.decode
    fun b => providerBondPda P programId b.provider b.mint

end Decoders

structure ConfigDto where
  bump : UInt8
  paused : Bool
  admin : Text
  genesisHashHex : Text
  allowedMint : Text
  tokenProgram : Text
  mintDecimals : UInt8
  minProviderBond : UInt64
  challengeDurationSeconds : Int64
  deriving DecidableEq

structure ProviderDto where
  bump : UInt8
  status : String
  authority : Text
  executionKeyCount : UInt8
  executionKeys : List Text
  deriving DecidableEq

structure ProviderBondDto where
  bump : UInt8
  provider : Text
  mint : Text
  tokenProgram : Text
  deposited : UInt64
  locked : UInt64
  deriving DecidableEq

structure JobDto where
  bump : UInt8
  state : String
  buyer : Text
  provider : Text
  mint : Text
  tokenProgram : Text
  amount : UInt64
  jobNonce : UInt64
  fundDeadline : Int64
  acceptDeadline : Int64
  workDeadline : Int64
  autoSettleDeadline : Int64
  receiptDigestHex : Text
  requestHashHex : Text
  lockedBond : UInt64
  mintDecimals : UInt8
  deriving DecidableEq

structure ChallengeDto where
  bump : UInt8
  status : UInt8
  job : Text
  buyer : Text
  reasonHashHex : Text
  deadline : Int64
  bondAmount : UInt64
  deriving DecidableEq

def keyToHex (key : Bytes 32) : Text := hex key.toList

def ConfigDto.fromAccount (a : ConfigAccount) : ConfigDto where
  bump := a.bump
  paused := a.paused
  admin := keyToText a.admin
  genesisHashHex := keyToHex a.genesisHash
  allowedMint := keyToText a.allowedMint
  tokenProgram := keyToText a.tokenProgram
  mintDecimals := a.mintDecimals
  minProviderBond := a.minProviderBond
  challengeDurationSeconds := a.challengeDurationSeconds

def ProviderDto.statusName (status : UInt8) : String :=
  if status = providerStatusActive then "Active"
  else if status = providerStatusInactive then "Inactive"
  else "Unknown"

/-- Only the keys in use are shown. -/
def ProviderDto.fromAccount (a : ProviderAccount) : ProviderDto where
  bump := a.bump
  status := statusName a.status
  authority := keyToText a.authority
  executionKeyCount := a.executionKeyCount
  executionKeys := (a.executionKeys.toList.take a.executionKeyCount.toNat).map keyToHex

def ProviderBondDto.fromAccount (a : ProviderBondAccount) : ProviderBondDto where
  bump := a.bump
  provider := keyToText a.provider
  mint := keyToText a.mint
  tokenProgram := keyToText a.tokenProgram
  deposited := a.deposited
  locked := a.locked

def JobDto.fromAccount (a : JobAccount) : JobDto where
  bump := a.bump
  state := Indexer.jobStateName a.state
  buyer := keyToText a.buyer
  provider := keyToText a.provider
  mint := keyToText a.mint
  tokenProgram := keyToText a.tokenProgram
  amount := a.amount
  jobNonce := a.jobNonce
  fundDeadline := a.fundDeadline
  acceptDeadline := a.acceptDeadline
  workDeadline := a.workDeadline
  autoSettleDeadline := a.autoSettleDeadline
  receiptDigestHex := keyToHex a.receiptDigest
  requestHashHex := keyToHex a.requestHash
  lockedBond := a.lockedBond
  mintDecimals := a.mintDecimals

def ChallengeDto.fromAccount (a : ChallengeAccount) : ChallengeDto where
  bump := a.bump
  status := a.status
  job := keyToText a.job
  buyer := keyToText a.buyer
  reasonHashHex := keyToHex a.reasonHash
  deadline := a.deadline
  bondAmount := a.bondAmount

section Services

variable {α β : Type} (P : Platform) (reader : ChainReader) (programId address : Pubkey)

/-- Fetch an account, decode it and show it. -/
def inspectDto (name : String) (decode : Pubkey → AccountData → Planned α) (view : α → β) :
    Served β := do
  let acc ← fetch reader address name
  let account ← ofSdk (decode acc.owner acc.data)
  .ok (view account)

def inspectConfigDto : Served ConfigDto := do
  let addr ← ofSdk (configPda P programId)
  inspectDto reader addr.address "config" (decodeConfig P programId addr.address)
    ConfigDto.fromAccount

def inspectProviderDto : Served ProviderDto :=
  inspectDto reader address "provider" (decodeProvider P programId address) ProviderDto.fromAccount

def inspectBondDto : Served ProviderBondDto :=
  inspectDto reader address "bond" (decodeProviderBond P programId address)
    ProviderBondDto.fromAccount

def inspectJobDto : Served JobDto :=
  inspectDto reader address "job" (decodeJob P programId address) JobDto.fromAccount

def inspectChallengeDto : Served ChallengeDto :=
  inspectDto reader address "challenge" (decodeChallenge P programId address)
    ChallengeDto.fromAccount

end Services

section Agreement

variable {α β : Type} {P : Platform} {L L' : Ledger} {a : Pubkey} {now : Int64} {name : String}
  {m : AccountMeta}

theorem fetch_eq_ok {acc : FetchedAccount} : fetch (.of L now) a name = .ok acc ↔
    L.account a ≠ Account.vacant ∧
      { owner := (L.account a).owner, data := (L.account a).data } = acc := by
  simp only [fetch, ChainReader.of, bind_eq_ok, ofSdk_eq_ok, Except.ok.injEq, exists_eq_left',
    okOr_eq_ok, Option.ite_none_left_eq_some, Option.some.injEq]

theorem decodeJob_eq (programId owner : Pubkey) (data : AccountData) :
    decodeJob P programId a owner data = decodeDerived programId a owner data jobAccountLen
      JobAccount.decode fun j => jobPda P programId j.buyer j.provider j.jobNonce :=
  rfl

theorem decodeChallenge_eq (programId owner : Pubkey) (data : AccountData) :
    decodeChallenge P programId a owner data = decodeDerived programId a owner data
      challengeAccountLen ChallengeAccount.decode fun c => challengePda P programId c.job :=
  rfl

theorem decodeDerived_eq_ok {len : ℕ} {decode : List UInt8 → Except ProtocolError α}
    {pda : α → Planned PdaAddress} {x : α} (record : α → Record) (h : Sound P L)
    (hdecode : ∀ bytes, decode bytes = .ok x ↔ Record.decode bytes = some (record x))
    (hlen : L.recordAt P.programId a = some (record x) → (L.account a).data.len = len)
    (hpda : pda x = findPda P (record x).seeds P.programId) :
    decodeDerived P.programId a (L.account a).owner (L.account a).data len decode pda = .ok x ↔
      L.recordAt P.programId a = some (record x) := by
  simp only [decodeDerived, Decode.requireOwner, Decode.requireLen, Decode.requireAddress,
    bind_eq_ok, ensure_eq_ok, exists_const, mapError_eq_ok, Except.ok.injEq]
  constructor
  · rintro ⟨howner, -, x', hx', expected, -, -, rfl⟩
    exact recordAt_eq_some.mpr ⟨howner, (hdecode _).mp hx'⟩
  · intro hr
    obtain ⟨howner, hx⟩ := recordAt_eq_some.mp hr
    have hfind := h.inv.found a _ hr
    exact ⟨howner, hlen hr, x, (hdecode _).mpr hx, ⟨a, (record x).bump⟩,
      hpda.trans (findPda_eq_ok.mpr hfind), rfl, rfl⟩

theorem decodeProvider_eq_ok {p : ProviderAccount} (h : Sound P L) :
    decodeProvider P P.programId a (L.account a).owner (L.account a).data = .ok p ↔
      L.recordAt P.programId a = some (.provider p) :=
  decodeDerived_eq_ok .provider h (fun _ => Record.decode_eq_provider.symm) len_of_provider rfl

theorem decodeProviderBond_eq_ok {b : ProviderBondAccount} (h : Sound P L) :
    decodeProviderBond P P.programId a (L.account a).owner (L.account a).data = .ok b ↔
      L.recordAt P.programId a = some (.bond b) :=
  decodeDerived_eq_ok .bond h (fun _ => Record.decode_eq_bond.symm) len_of_bond rfl

theorem decodeJob_eq_ok {j : JobAccount} (h : Sound P L) :
    decodeJob P P.programId a (L.account a).owner (L.account a).data = .ok j ↔
      L.recordAt P.programId a = some (.job j) := by
  rw [decodeJob_eq]
  exact decodeDerived_eq_ok .job h (fun _ => Record.decode_eq_job.symm) len_of_job rfl

theorem decodeChallenge_eq_ok {c : ChallengeAccount} (h : Sound P L) :
    decodeChallenge P P.programId a (L.account a).owner (L.account a).data = .ok c ↔
      L.recordAt P.programId a = some (.challenge c) := by
  rw [decodeChallenge_eq]
  exact decodeDerived_eq_ok .challenge h (fun _ => Record.decode_eq_challenge.symm)
    len_of_challenge rfl

theorem decodeConfig_eq_ok {c : ConfigAccount} (h : Sound P L) :
    decodeConfig P P.programId a (L.account a).owner (L.account a).data = .ok c ↔
      L.recordAt P.programId a = some (.config c) := by
  simp only [decodeConfig, Decode.requireOwner, Decode.requireLen, Decode.requireAddress,
    bind_eq_ok, ensure_eq_ok, exists_const, mapError_eq_ok, configPda, findPda_eq_ok]
  constructor
  · rintro ⟨howner, expected, -, -, -, hc⟩
    exact recordAt_eq_some.mpr ⟨howner, Record.decode_eq_config.mpr hc⟩
  · intro hr
    obtain ⟨howner, hc⟩ := recordAt_eq_some.mp hr
    have hc := Record.decode_eq_config.mp hc
    have hfind := h.config_found hr
    exact ⟨howner, ⟨a, c.bump⟩, hfind, rfl,
      AccountData.len_eq_of_bytes (by decide) (ConfigAccount.of_decode hc).1, hc⟩

/-- An account is shown exactly when it is decoded: none of the program is vacant. -/
theorem inspectDto_eq_ok {decode : Pubkey → AccountData → Planned α} {view : α → β} {dto : β}
    (record : α → Record)
    (hdecode : ∀ x, decode (L.account a).owner (L.account a).data = .ok x ↔
      L.recordAt P.programId a = some (record x)) :
    inspectDto (.of L now) a name decode view = .ok dto ↔
      ∃ x, L.recordAt P.programId a = some (record x) ∧ view x = dto := by
  simp only [inspectDto, bind_eq_ok, fetch_eq_ok, ofSdk_eq_ok, Except.ok.injEq]
  constructor
  · rintro ⟨acc, ⟨-, rfl⟩, x, hx, hview⟩
    exact ⟨x, (hdecode x).mp hx, hview⟩
  · rintro ⟨x, hr, hview⟩
    have hused : L.account a ≠ Account.vacant := by
      intro hv
      have howner := Ledger.owner_of_recordAt hr
      rw [hv] at howner
      exact P.programId_ne_system howner.symm
    exact ⟨_, ⟨hused, rfl⟩, x, (hdecode x).mpr hr, hview⟩

theorem keyToText_injective : Function.Injective keyToText := by
  intro k k' h
  have hk := Base58.decodeKey_encode k
  rw [← keyToText, h, keyToText, Base58.decodeKey_encode] at hk
  exact (Option.some.inj hk).symm

theorem keyToHex_injective : Function.Injective keyToHex := by
  intro k k' h
  have hk := hex_hex k.toList
  rw [← keyToHex, h] at hk
  exact Subtype.ext (hk.unique (hex_hex k'.toList))

theorem jobStateName_injective : Function.Injective Indexer.jobStateName := by
  intro s s' h
  cases s <;> cases s' <;> first | rfl | exact absurd h (by decide)

theorem ConfigDto.fromAccount_injective : Function.Injective ConfigDto.fromAccount := by
  rintro ⟨⟩ ⟨⟩ h
  simp only [fromAccount, mk.injEq, keyToText_injective.eq_iff, keyToHex_injective.eq_iff] at h
  simp only [ConfigAccount.mk.injEq]
  exact h

theorem ProviderBondDto.fromAccount_injective : Function.Injective ProviderBondDto.fromAccount := by
  rintro ⟨⟩ ⟨⟩ h
  simp only [fromAccount, mk.injEq, keyToText_injective.eq_iff] at h
  simp only [ProviderBondAccount.mk.injEq]
  exact h

theorem JobDto.fromAccount_injective : Function.Injective JobDto.fromAccount := by
  rintro ⟨⟩ ⟨⟩ h
  simp only [fromAccount, mk.injEq, keyToText_injective.eq_iff, keyToHex_injective.eq_iff,
    jobStateName_injective.eq_iff] at h
  simp only [JobAccount.mk.injEq]
  exact h

theorem ChallengeDto.fromAccount_injective : Function.Injective ChallengeDto.fromAccount := by
  rintro ⟨⟩ ⟨⟩ h
  simp only [fromAccount, mk.injEq, keyToText_injective.eq_iff, keyToHex_injective.eq_iff] at h
  obtain ⟨hbump, hstatus, hjob, hbuyer, hreason, hdeadline, hamount⟩ := h
  simp only [ChallengeAccount.mk.injEq]
  exact ⟨hbump, hstatus, hjob, hbuyer, hreason, hamount, hdeadline⟩

theorem ProviderDto.eq_of_fromAccount {p p' : ProviderAccount}
    (hp : p.status = providerStatusActive ∧ p.KeysPacked)
    (hp' : p'.status = providerStatusActive ∧ p'.KeysPacked)
    (h : ProviderDto.fromAccount p = ProviderDto.fromAccount p') : p = p' := by
  simp only [fromAccount, mk.injEq, keyToText_injective.eq_iff] at h
  obtain ⟨hbump, -, hauthority, hcount, hkeys⟩ := h
  have htake := List.map_injective_iff.mpr keyToHex_injective hkeys
  rw [hcount] at htake
  have hslots := Packed.eq_of_take (hcount ▸ hp.2) hp'.2 (by simp) htake
  have hstatus := hp.1.trans hp'.1.symm
  obtain ⟨⟩ := p
  obtain ⟨⟩ := p'
  simp only [ProviderAccount.mk.injEq]
  exact ⟨hbump, hstatus, hauthority, hcount, Subtype.ext hslots⟩

end Agreement

/-- In every ledger that can be reached the service shows what the program loads, and says all of
it. -/
structure Shows {α β : Type} (P : Platform) (inspect : Ledger → Served β)
    (loads : Ledger → α → Prop)
    (view : α → β) : Prop where
  shown : ∀ {L}, Reached P L → ∀ dto, inspect L = .ok dto ↔ ∃ x, loads L x ∧ view x = dto
  full : ∀ {L L'}, Reached P L → Reached P L' → ∀ {x x'}, loads L x → loads L' x' →
    view x = view x' → x = x'

section Faithful

variable {P : Platform} {now : Int64} {m : AccountMeta}

variable {α β : Type} {inspect : Ledger → Served β} {view : α → β}

/-- The service reads the record that the program reads. -/
theorem Shows.of_record (record : α → Record) (a : Pubkey)
    (hinspect : ∀ {L}, Sound P L → ∀ dto, inspect L = .ok dto ↔
      ∃ x, L.recordAt P.programId a = some (record x) ∧ view x = dto)
    {loads : Ledger → α → Prop}
    (hloads : ∀ {L x}, loads L x ↔ L.recordAt P.programId a = some (record x) ∧
      P.addressOf (record x) = some a)
    (hfull : ∀ {L L'}, Reached P L → Reached P L' → ∀ {x x'},
      L.recordAt P.programId a = some (record x) → L'.recordAt P.programId a = some (record x') →
        view x = view x' → x = x') :
    Shows P inspect loads view where
  shown h dto := by
    have hs := Sound.of_reached h
    rw [hinspect hs]
    exact exists_congr fun x => and_congr_left fun _ =>
      (hloads.trans (and_iff_left_of_imp fun hx => hs.inv.found.address hx)).symm
  full h h' x x' hx hx' := hfull h h' (hloads.mp hx).1 (hloads.mp hx').1

theorem shows_provider : Shows P (fun L => inspectProviderDto P (.of L now) P.programId m.key)
    (fun L p => loadValidatedProvider P L m = .ok p) ProviderDto.fromAccount :=
  .of_record .provider m.key
    (fun hs _ => inspectDto_eq_ok .provider fun _ => decodeProvider_eq_ok hs)
    loadValidatedProvider_eq_ok fun h h' _ _ hp hp' =>
      ProviderDto.eq_of_fromAccount (Keyed.of_reached h _ _ hp _ rfl)
        (Keyed.of_reached h' _ _ hp' _ rfl)

theorem shows_bond : Shows P (fun L => inspectBondDto P (.of L now) P.programId m.key)
    (fun L b => loadValidatedBond P L m = .ok b) ProviderBondDto.fromAccount :=
  .of_record .bond m.key (fun hs _ => inspectDto_eq_ok .bond fun _ => decodeProviderBond_eq_ok hs)
    loadValidatedBond_eq_ok fun _ _ _ _ _ _ heq => ProviderBondDto.fromAccount_injective heq

theorem shows_job : Shows P (fun L => inspectJobDto P (.of L now) P.programId m.key)
    (fun L j => loadValidatedJob P L m = .ok j) JobDto.fromAccount :=
  .of_record .job m.key (fun hs _ => inspectDto_eq_ok .job fun _ => decodeJob_eq_ok hs)
    loadValidatedJob_eq_ok fun _ _ _ _ _ _ heq => JobDto.fromAccount_injective heq

theorem shows_challenge : Shows P (fun L => inspectChallengeDto P (.of L now) P.programId m.key)
    (fun L c => loadValidatedChallenge P L m c.job = .ok c) ChallengeDto.fromAccount :=
  .of_record .challenge m.key
    (fun hs _ => inspectDto_eq_ok .challenge fun _ => decodeChallenge_eq_ok hs)
    (loadValidatedChallenge_eq_ok.trans (by simp only [and_true]))
    fun _ _ _ _ _ _ heq => ChallengeDto.fromAccount_injective heq

/-- The configuration is looked for where its address is found, and is nowhere else. -/
theorem shows_config : Shows P (fun L => inspectConfigDto P (.of L now) P.programId)
    (fun L c => ∃ m, loadValidatedConfig P L m = .ok c) ConfigDto.fromAccount where
  shown {L} h dto := by
    have hs := Sound.of_reached h
    have hinspect : ∀ a, inspectDto (.of L now) a "config" (decodeConfig P P.programId a)
        ConfigDto.fromAccount = .ok dto ↔
          ∃ c, L.recordAt P.programId a = some (.config c) ∧ ConfigDto.fromAccount c = dto :=
      fun a => inspectDto_eq_ok .config fun _ => decodeConfig_eq_ok hs
    simp only [inspectConfigDto, bind_eq_ok, ofSdk_eq_ok, configPda, findPda_eq_ok, hinspect,
      loadValidatedConfig_eq_ok]
    constructor
    · rintro ⟨addr, -, c, hc, hview⟩
      exact ⟨c, ⟨.new addr.address false, hc, hs.inv.found.address hc⟩, hview⟩
    · rintro ⟨c, ⟨m, hc, -⟩, hview⟩
      exact ⟨⟨m.key, c.bump⟩, hs.inv.found m.key _ hc, c, hc, hview⟩
  full _ _ _ _ _ _ heq := ConfigDto.fromAccount_injective heq

/-- Whatever is stored at an address: each service shows exactly what the program would load from
there, and two different accounts are never shown alike. -/
theorem inspected_as_loaded (P : Platform) (now : Int64) (m : AccountMeta) :
    Shows P (fun L => inspectConfigDto P (.of L now) P.programId)
        (fun L c => ∃ m, loadValidatedConfig P L m = .ok c) ConfigDto.fromAccount ∧
      Shows P (fun L => inspectProviderDto P (.of L now) P.programId m.key)
        (fun L p => loadValidatedProvider P L m = .ok p) ProviderDto.fromAccount ∧
      Shows P (fun L => inspectBondDto P (.of L now) P.programId m.key)
        (fun L b => loadValidatedBond P L m = .ok b) ProviderBondDto.fromAccount ∧
      Shows P (fun L => inspectJobDto P (.of L now) P.programId m.key)
        (fun L j => loadValidatedJob P L m = .ok j) JobDto.fromAccount ∧
      Shows P (fun L => inspectChallengeDto P (.of L now) P.programId m.key)
        (fun L c => loadValidatedChallenge P L m c.job = .ok c) ChallengeDto.fromAccount :=
  ⟨shows_config, shows_provider, shows_bond, shows_job, shows_challenge⟩

end Faithful

/-- The services show the accepted sample job as it is stored and the configuration where its
address is found. What is shown of the job changes with its receipt. -/
theorem inspected_as_loaded_sample :
    inspectJobDto Sample.platform (.of Sample.acceptedLedger 50) Sample.programId Sample.jobKey =
        .ok (JobDto.fromAccount Sample.acceptedJob) ∧
      inspectConfigDto Sample.platform (.of Sample.submittedLedger 50) Sample.programId =
        .ok (ConfigDto.fromAccount Sample.config) ∧
      (¬ ∃ dto, inspectProviderDto Sample.platform (.of Sample.acceptedLedger 50) Sample.programId
        Sample.jobKey = .ok dto) ∧
      JobDto.fromAccount Sample.acceptedJob ≠ JobDto.fromAccount Sample.submittedJob := by
  obtain ⟨hconfig, hprovider, -, hjob, -⟩ :=
    inspected_as_loaded Sample.platform 50 (.new Sample.jobKey false)
  have haddress : Sample.platform.addressOf (.job Sample.acceptedJob) = some Sample.jobKey := by
    decide
  have haccepted : loadValidatedJob Sample.platform Sample.acceptedLedger
      (.new Sample.jobKey false) = .ok Sample.acceptedJob :=
    loadValidatedJob_eq_ok.mpr ⟨Sample.views_acceptedLedger.1, haddress⟩
  have hsubmitted : loadValidatedJob Sample.platform Sample.submittedLedger
      (.new Sample.jobKey false) = .ok Sample.submittedJob :=
    loadValidatedJob_eq_ok.mpr ⟨Sample.job_at_submittedLedger, haddress⟩
  refine ⟨?_, ?_, ?_, fun he => ?_⟩
  · exact (hjob.shown Sample.reached_acceptedLedger _).mpr ⟨_, haccepted, rfl⟩
  · exact (hconfig.shown Sample.reached_submittedLedger _).mpr
      ⟨_, ⟨.new Sample.configKey false,
        loadValidatedConfig_eq_ok.mpr ⟨Sample.views_submittedLedger.2.1, by decide⟩⟩, rfl⟩
  · rintro ⟨dto, hdto⟩
    obtain ⟨p, hp, -⟩ := (hprovider.shown Sample.reached_acceptedLedger dto).mp hdto
    cases Sample.views_acceptedLedger.1.symm.trans (loadValidatedProvider_eq_ok.mp hp).1
  · cases hjob.full Sample.reached_acceptedLedger Sample.reached_submittedLedger haccepted
      hsubmitted he

end AgentBond
