import AgentBond.Chain.Deadlines
import AgentBond.Sdk.Builders

/-! # The timeout planner

Off the chain, a client reads a job, its challenge and the clock, decides which
timeout has come and builds the instruction that resolves it. It decides as the
processors do.
-/

namespace AgentBond

open Foundation

/-- What the RPC node returns of an account. -/
structure FetchedAccount where
  owner : Pubkey
  data : AccountData

structure ChainReader where
  getAccount : Pubkey → Planned (Option FetchedAccount)
  getUnixTimestamp : Planned Int64

/-- A reader that sees the ledger and the clock as they are. -/
def ChainReader.of (L : Ledger) (now : Int64) : ChainReader where
  getAccount k := .ok (if L.account k = Account.vacant then none
    else some { owner := (L.account k).owner, data := (L.account k).data })
  getUnixTimestamp := .ok now

namespace Decode

def requireOwner (owner programId : Pubkey) : Planned Unit := ensure (owner = programId) .wrongOwner

def requireAddress (actual expected : Pubkey) : Planned Unit :=
  ensure (actual = expected) .wrongAddress

def requireLen (data : AccountData) (expected : ℕ) : Planned Unit :=
  ensure (data.len = expected)
    (.decode ("expected length " ++ toString expected ++ ", got " ++ toString data.len))

end Decode

section Decoders

variable (P : Platform) (programId address owner : Pubkey) (data : AccountData)

def decodeJob : Planned JobAccount := do
  Decode.requireOwner owner programId
  Decode.requireLen data jobAccountLen
  let job ← (JobAccount.decode data.bytes).mapError .decodeFailed
  let expected ← jobPda P programId job.buyer job.provider job.jobNonce
  Decode.requireAddress address expected.address
  .ok job

def decodeChallenge : Planned ChallengeAccount := do
  Decode.requireOwner owner programId
  Decode.requireLen data challengeAccountLen
  let challenge ← (ChallengeAccount.decode data.bytes).mapError .decodeFailed
  let expected ← challengePda P programId challenge.job
  Decode.requireAddress address expected.address
  .ok challenge

end Decoders

inductive AppError
  | validation (text : String)
  | notFound (text : String)
  | sdk (e : SdkError)
  | config (text : String)
  deriving DecidableEq

abbrev Served (α : Type) := Except AppError α

def ofSdk {α : Type} (r : Planned α) : Served α := r.mapError .sdk

def pk (s : Text) (label : String) : Served Pubkey :=
  okOr (Base58.decodeKey s) (.validation ("invalid " ++ label))

def parsePk (s : Text) (label : String) : Served Pubkey :=
  okOr (Base58.decodeKey s) (.config ("invalid " ++ label))

/-- The part of the configuration that the planner reads. -/
structure AppConfig where
  programId : Text
  settlementMint : Text
  tokenProgram : Text

def AppConfig.programPubkey (cfg : AppConfig) : Served Pubkey := parsePk cfg.programId "program_id"

def AppConfig.mintPubkey (cfg : AppConfig) : Served Pubkey :=
  parsePk cfg.settlementMint "settlement_mint"

structure TimeoutRequest where
  payer : Text
  buyer : Text
  provider : Text
  jobNonce : UInt64

section Planner

variable (P : Platform)

def fetch (reader : ChainReader) (address : Pubkey) (name : String) : Served FetchedAccount := do
  let found ← ofSdk (reader.getAccount address)
  okOr found (.notFound name)

def inspectJob (reader : ChainReader) (programId address : Pubkey) : Served JobAccount := do
  let acc ← fetch reader address "job"
  ofSdk (decodeJob P programId address acc.owner acc.data)

def notEligible : AppError := .validation "job is not eligible for timeout resolution"

/-- The plan for a live job whose deadline has passed. -/
def planTimeout (reader : ChainReader) (programId payer buyer provider mint jobAddr : Pubkey)
    (jobNonce : UInt64) (job : JobAccount) (now : Int64) : Served InstructionPlan :=
  match job.state with
  | .created =>
    if job.fundDeadline ≤ now then
      ofSdk (planExpireUnfunded P programId payer buyer provider jobNonce)
    else .error notEligible
  | .funded =>
    if job.acceptDeadline ≤ now then
      ofSdk (planResolveTimeoutRefund P programId payer buyer provider mint jobNonce)
    else .error notEligible
  | .accepted =>
    if job.workDeadline < now then
      ofSdk (planResolveTimeoutRefund P programId payer buyer provider mint jobNonce)
    else .error notEligible
  | .submitted =>
    if job.autoSettleDeadline ≤ now then
      ofSdk (planResolveTimeoutSettle P programId payer buyer provider mint jobNonce false)
    else .error notEligible
  | .challenged => do
    let challengeAddr ← ofSdk (challengePda P programId jobAddr)
    let acc ← fetch reader challengeAddr.address "challenge"
    let challenge ← ofSdk (decodeChallenge P programId challengeAddr.address acc.owner acc.data)
    ensure (challenge.job = jobAddr) (.validation "challenge does not belong to job")
    ensure (¬ now < challenge.deadline) (.validation "challenge deadline not reached")
    ofSdk (planResolveTimeoutSettle P programId payer buyer provider mint jobNonce true)
  | _ => .error notEligible

def buildTimeoutPlan (cfg : AppConfig) (reader : ChainReader) (req : TimeoutRequest) :
    Served InstructionPlan := do
  let programId ← cfg.programPubkey
  let mint ← cfg.mintPubkey
  let tokenProgram ← pk cfg.tokenProgram "token_program"
  let buyer ← pk req.buyer "buyer"
  let provider ← pk req.provider "provider"
  let payer ← pk req.payer "payer"
  let jobAddr ← ofSdk (jobPda P programId buyer provider req.jobNonce)
  let job ← inspectJob P reader programId jobAddr.address
  let now ← ofSdk reader.getUnixTimestamp
  ensure (job.buyer = buyer ∧ job.provider = provider ∧ job.jobNonce = req.jobNonce ∧
      job.mint = mint ∧ job.tokenProgram = tokenProgram)
    (.validation "fetched job does not match request and configured protocol")
  ensure (job.state.isTerminal = false)
    (.validation "terminal job is never eligible for timeout resolution")
  planTimeout P reader programId payer buyer provider mint jobAddr.address req.jobNonce job now

end Planner

section Agreement

variable {P : Platform} {L L' : Ledger} {a : Pubkey} {j : JobAccount} {m : AccountMeta} {ctx : Ctx}
  {now : Int64} {cfg : AppConfig} {req : TimeoutRequest} {plan : InstructionPlan} {ix : Instruction}
  {data : List UInt8} {ev : ProtocolEvent}

@[simp] theorem ofSdk_eq_ok {α : Type} {r : Planned α} {x : α} :
    ofSdk r = .ok x ↔ r = .ok x := by
  cases r <;> simp [ofSdk, Except.mapError]

@[simp] theorem pk_eq_ok {s : Text} {label : String} {k : Pubkey} :
    pk s label = .ok k ↔ Base58.decodeKey s = some k :=
  okOr_eq_ok

@[simp] theorem parsePk_eq_ok {s : Text} {label : String} {k : Pubkey} :
    parsePk s label = .ok k ↔ Base58.decodeKey s = some k :=
  okOr_eq_ok

/-- The state and deadline checks of the instructions that resolve a timeout. -/
def TimeoutDue (P : Platform) (L : Ledger) (a : Pubkey) (j : JobAccount) (now : Int64) :
    Instruction → Prop
  | .expireUnfunded => j.state = .created ∧ j.fundDeadline ≤ now
  | .resolveTimeoutRefund => j.state = .funded ∧ j.acceptDeadline ≤ now ∨
      j.state = .accepted ∧ j.workDeadline < now
  | .resolveTimeoutSettle => j.state = .submitted ∧ j.autoSettleDeadline ≤ now ∨
      j.state = .challenged ∧ ∃ c, openChallenge P L a = some c ∧
        c.status = ChallengeAccount.statusOpen ∧ c.deadline ≤ now
  | _ => False

theorem timeoutDue_resolveTimeoutRefund : TimeoutDue P L a j now .resolveTimeoutRefund ↔
    j.state = .funded ∧ j.acceptDeadline ≤ now ∨ j.state = .accepted ∧ j.workDeadline < now :=
  Iff.rfl

theorem timeoutDue_resolveTimeoutSettle : TimeoutDue P L a j now .resolveTimeoutSettle ↔
    j.state = .submitted ∧ j.autoSettleDeadline ≤ now ∨
      j.state = .challenged ∧ ∃ c, openChallenge P L a = some c ∧
        c.status = ChallengeAccount.statusOpen ∧ c.deadline ≤ now :=
  Iff.rfl

/-- The request and the configuration name the job as it is stored. -/
structure TimeoutRequest.Asks (P : Platform) (cfg : AppConfig) (req : TimeoutRequest)
    (j : JobAccount) : Prop where
  program : Base58.decodeKey cfg.programId = some P.programId
  mint : Base58.decodeKey cfg.settlementMint = some j.mint
  tokenProgram : Base58.decodeKey cfg.tokenProgram = some j.tokenProgram
  payer : ∃ payer, Base58.decodeKey req.payer = some payer
  buyer : Base58.decodeKey req.buyer = some j.buyer
  provider : Base58.decodeKey req.provider = some j.provider
  nonce : req.jobNonce = j.jobNonce

/-- The searches for the addresses that a plan lists find one. -/
structure Derivable (P : Platform) (a : Pubkey) (j : JobAccount) : Prop where
  bond : ∃ x, P.tryFindProgramAddress (bondSeedParts j.provider j.mint) P.programId = some x
  escrow : ∃ x, P.ata a j.mint = some x
  providerToken : ∃ x, P.ata j.provider j.mint = some x
  buyerToken : ∃ x, P.ata j.buyer j.mint = some x

/-- The instruction is called on the job, with the challenge of a challenged job behind the
accounts that every call takes. -/
structure Resolves (P : Platform) (a : Pubkey) (j : JobAccount) (ix : Instruction)
    (ci : ChainInstruction) : Prop where
  program : ci.programId = P.programId
  parse : Instruction.parse ci.data = .ok ix
  job : ci.accounts[1]? = some (.new a false)
  challenge : ∀ m, ci.accounts[9]? = some m ↔ j.state = .challenged ∧
    ∃ k bump, P.tryFindProgramAddress (challengeSeedParts a) P.programId = some (k, bump) ∧
      m = .new k false

theorem fetch_of_record {r : Record} {name : String} (h : L.recordAt P.programId a = some r) :
    fetch (.of L now) a name = .ok { owner := P.programId, data := (L.account a).data } := by
  have howner := Ledger.owner_of_recordAt h
  have hused : L.account a ≠ Account.vacant := by
    intro hv
    rw [hv] at howner
    exact P.programId_ne_system howner.symm
  simp only [fetch, ChainReader.of, if_neg hused, bind_eq_ok, ofSdk_eq_ok, Except.ok.injEq,
    exists_eq_left', okOr_eq_ok, howner]

theorem inspectJob_of_record (h : Sound P L) (hj : L.recordAt P.programId a = some (.job j)) :
    inspectJob P (.of L now) P.programId a = .ok j := by
  have hfind := h.job_found hj
  have hdecode := Record.decode_eq_job.mp (recordAt_eq_some.mp hj).2
  simp only [inspectJob, fetch_of_record hj, bind_eq_ok, Except.ok.injEq, exists_eq_left',
    ofSdk_eq_ok, decodeJob, Decode.requireOwner, Decode.requireLen, Decode.requireAddress,
    ensure_eq_ok, exists_const, len_of_job hj, hdecode, Except.mapError, jobPda, findPda_eq_ok,
    hfind, Option.some.injEq, Prod.mk.injEq, true_and, and_true]
  exact ⟨⟨a, j.bump⟩, ⟨rfl, rfl⟩, rfl⟩

theorem decodeChallenge_of_record {k : Pubkey} {c : ChallengeAccount} (h : Sound P L)
    (hc : L.recordAt P.programId k = some (.challenge c)) :
    decodeChallenge P P.programId k P.programId (L.account k).data = .ok c := by
  have hfind := h.challenge_found hc
  have hdecode := Record.decode_eq_challenge.mp (recordAt_eq_some.mp hc).2
  simp only [bind_eq_ok, Except.ok.injEq, decodeChallenge, Decode.requireOwner, Decode.requireLen,
    Decode.requireAddress, ensure_eq_ok, exists_const, len_of_challenge hc, hdecode,
    Except.mapError, challengePda, findPda_eq_ok, hfind, Option.some.injEq, Prod.mk.injEq,
    true_and, exists_eq_left', and_true]
  exact ⟨⟨k, c.bump⟩, ⟨rfl, rfl⟩, rfl⟩

/-- The request reaches the decision on the job, unless the job is over. -/
theorem buildTimeoutPlan_eq_ok (h : Sound P L) (hj : L.recordAt P.programId a = some (.job j))
    (hasks : req.Asks P cfg j) : buildTimeoutPlan P cfg (.of L now) req = .ok plan ↔
      ∃ payer, Base58.decodeKey req.payer = some payer ∧ j.state.isTerminal = false ∧
        planTimeout P (.of L now) P.programId payer j.buyer j.provider j.mint a j.jobNonce j now =
          .ok plan := by
  have hfind := h.job_found hj
  simp only [buildTimeoutPlan, AppConfig.programPubkey, AppConfig.mintPubkey, bind_eq_ok,
    parsePk_eq_ok, pk_eq_ok, hasks.program, hasks.mint, hasks.tokenProgram, hasks.buyer,
    hasks.provider, hasks.nonce, Option.some.injEq, exists_eq_left', ofSdk_eq_ok, jobPda,
    findPda_eq_ok, hfind, Prod.mk.injEq, ensure_eq_ok, exists_const]
  constructor
  · rintro ⟨payer, hpayer, x, ⟨rfl, -⟩, j', hj', t, ht, -, hlive, hplan⟩
    obtain rfl := Except.ok.inj ((inspectJob_of_record h hj).symm.trans hj')
    obtain rfl : now = t := Except.ok.inj ht
    exact ⟨payer, hpayer, hlive, hplan⟩
  · rintro ⟨payer, hpayer, hlive, hplan⟩
    exact ⟨payer, hpayer, ⟨a, j.bump⟩, ⟨rfl, rfl⟩, j, inspectJob_of_record h hj, now, rfl,
      ⟨rfl, rfl, rfl, rfl, rfl⟩, hlive, hplan⟩

section Plans

variable {payer : Pubkey}

theorem planExpireUnfunded_resolves (h : planExpireUnfunded P P.programId payer j.buyer j.provider
    j.jobNonce = .ok plan) (hs : j.state = .created)
    (hfind : P.tryFindProgramAddress (jobSeedParts j.buyer j.provider j.jobNonce) P.programId =
      some (a, j.bump)) :
    ∃ ci, plan.toSolanaInstructions = .ok [ci] ∧ Resolves P a j .expireUnfunded ci := by
  simp only [planExpireUnfunded, jobPda, bind_eq_ok, findPda_eq_ok, Except.ok.injEq, hfind,
    Option.some.injEq, Prod.mk.injEq] at h
  obtain ⟨x, ⟨rfl, -⟩, data, hdata, rfl⟩ := h
  refine ⟨_, toSolanaInstructions_single, rfl, parse_of_emptyData rfl hdata, rfl, ?_⟩
  simp [hs]

theorem planResolveTimeoutRefund_resolves (h : planResolveTimeoutRefund P P.programId payer j.buyer
    j.provider j.mint j.jobNonce = .ok plan) (hs : j.state ≠ .challenged)
    (hfind : P.tryFindProgramAddress (jobSeedParts j.buyer j.provider j.jobNonce) P.programId =
      some (a, j.bump)) :
    ∃ ci, plan.toSolanaInstructions = .ok [ci] ∧ Resolves P a j .resolveTimeoutRefund ci := by
  simp only [planResolveTimeoutRefund, planRefund, jobPda, bind_eq_ok, findPda_eq_ok,
    Except.ok.injEq, hfind, Option.some.injEq, Prod.mk.injEq] at h
  obtain ⟨x, ⟨rfl, -⟩, bond, -, escrow, -, buyerToken, -, data, hdata, rfl⟩ := h
  refine ⟨_, toSolanaInstructions_single, rfl, parse_of_emptyData rfl hdata, rfl, ?_⟩
  simp [hs]

theorem planResolveTimeoutSettle_resolves (h : planResolveTimeoutSettle P P.programId payer j.buyer
    j.provider j.mint j.jobNonce (decide (j.state = .challenged)) = .ok plan)
    (hfind : P.tryFindProgramAddress (jobSeedParts j.buyer j.provider j.jobNonce) P.programId =
      some (a, j.bump)) :
    ∃ ci, plan.toSolanaInstructions = .ok [ci] ∧ Resolves P a j .resolveTimeoutSettle ci := by
  simp only [planResolveTimeoutSettle, jobPda, bind_eq_ok, findPda_eq_ok, Except.ok.injEq, hfind,
    Option.some.injEq, Prod.mk.injEq] at h
  obtain ⟨x, ⟨rfl, -⟩, bond, -, escrow, -, providerToken, -, buyerToken, -, challenge, hchallenge,
    data, hdata, rfl⟩ := h
  refine ⟨_, toSolanaInstructions_single, rfl, parse_of_emptyData rfl hdata, rfl, ?_⟩
  by_cases hs : j.state = .challenged
  · simp only [challengeAccounts, hs, decide_true, if_true, challengePda, bind_eq_ok,
      findPda_eq_ok, Except.ok.injEq] at hchallenge
    obtain ⟨k, hk, rfl⟩ := hchallenge
    simp [hs, hk, eq_comm]
  · simp only [challengeAccounts, hs, decide_false, Bool.false_eq_true, if_false,
      Except.ok.injEq] at hchallenge
    subst hchallenge
    simp [hs]

theorem planExpireUnfunded_succeeds (payer : Pubkey)
    (hfind : P.tryFindProgramAddress (jobSeedParts j.buyer j.provider j.jobNonce) P.programId =
      some (a, j.bump)) : ∃ plan,
        planExpireUnfunded P P.programId payer j.buyer j.provider j.jobNonce = .ok plan := by
  simp only [planExpireUnfunded, jobPda, bind_eq_ok, findPda_eq_ok, Except.ok.injEq]
  exact ⟨_, ⟨a, j.bump⟩, hfind, _, emptyData_succeeds rfl, rfl⟩

theorem planResolveTimeoutRefund_succeeds (payer : Pubkey) (hd : Derivable P a j)
    (hfind : P.tryFindProgramAddress (jobSeedParts j.buyer j.provider j.jobNonce) P.programId =
      some (a, j.bump)) : ∃ plan, planResolveTimeoutRefund P P.programId payer j.buyer j.provider
        j.mint j.jobNonce = .ok plan := by
  obtain ⟨bond, hbond⟩ := hd.bond
  obtain ⟨escrow, hescrow⟩ := hd.escrow
  obtain ⟨buyerToken, hbuyer⟩ := hd.buyerToken
  simp only [planResolveTimeoutRefund, planRefund, jobPda, providerBondPda, jobEscrowAta,
    userSettlementAta, bind_eq_ok, findPda_eq_ok, associatedAddress_eq_ok, Except.ok.injEq]
  exact ⟨_, ⟨a, j.bump⟩, hfind, ⟨bond.1, bond.2⟩, hbond, escrow, hescrow, buyerToken, hbuyer, _,
    emptyData_succeeds rfl, rfl⟩

theorem planResolveTimeoutSettle_succeeds (payer : Pubkey) (hd : Derivable P a j)
    (withChallenge : Bool)
    (hfind : P.tryFindProgramAddress (jobSeedParts j.buyer j.provider j.jobNonce) P.programId =
      some (a, j.bump))
    (hchallenge : withChallenge = true →
      ∃ x, P.tryFindProgramAddress (challengeSeedParts a) P.programId = some x) :
    ∃ plan, planResolveTimeoutSettle P P.programId payer j.buyer j.provider j.mint j.jobNonce
      withChallenge = .ok plan := by
  obtain ⟨bond, hbond⟩ := hd.bond
  obtain ⟨escrow, hescrow⟩ := hd.escrow
  obtain ⟨providerToken, hprovider⟩ := hd.providerToken
  obtain ⟨buyerToken, hbuyer⟩ := hd.buyerToken
  have haccounts : ∃ challenge,
      challengeAccounts P P.programId a withChallenge = .ok challenge := by
    cases withChallenge with
    | false => exact ⟨[], rfl⟩
    | true =>
      obtain ⟨k, hk⟩ := hchallenge rfl
      simp only [challengeAccounts, if_true, challengePda, bind_eq_ok, findPda_eq_ok,
        Except.ok.injEq]
      exact ⟨_, ⟨k.1, k.2⟩, hk, rfl⟩
  obtain ⟨challenge, haccounts⟩ := haccounts
  simp only [planResolveTimeoutSettle, jobPda, providerBondPda, jobEscrowAta, userSettlementAta,
    bind_eq_ok, findPda_eq_ok, associatedAddress_eq_ok, Except.ok.injEq]
  exact ⟨_, ⟨a, j.bump⟩, hfind, ⟨bond.1, bond.2⟩, hbond, escrow, hescrow, providerToken, hprovider,
    buyerToken, hbuyer, challenge, haccounts, _, emptyData_succeeds rfl, rfl⟩

end Plans

/-- The instruction that resolves a timeout in a state. -/
def timeoutInstruction : JobState → Option Instruction
  | .created => some .expireUnfunded
  | .funded | .accepted => some .resolveTimeoutRefund
  | .submitted | .challenged => some .resolveTimeoutSettle
  | _ => none

theorem TimeoutDue.instruction (h : TimeoutDue P L a j now ix) :
    timeoutInstruction j.state = some ix := by
  cases ix with
  | expireUnfunded => rw [h.1]; rfl
  | resolveTimeoutRefund => rcases h with h | h <;> rw [h.1] <;> rfl
  | resolveTimeoutSettle => rcases h with h | h <;> rw [h.1] <;> rfl
  | _ => cases h

/-- At most one of the instructions is due. -/
theorem TimeoutDue.unique {ix' : Instruction} (h : TimeoutDue P L a j now ix)
    (h' : TimeoutDue P L a j now ix') : ix' = ix :=
  Option.some.inj (h'.instruction.symm.trans h.instruction)

/-- What is planned for a live job is due, and resolves it. -/
theorem due_of_planTimeout {payer : Pubkey} (h : Sound P L)
    (hj : L.recordAt P.programId a = some (.job j))
    (hplan : planTimeout P (.of L now) P.programId payer j.buyer j.provider j.mint a j.jobNonce j
      now = .ok plan) :
    ∃ ix ci, TimeoutDue P L a j now ix ∧ plan.toSolanaInstructions = .ok [ci] ∧
      Resolves P a j ix ci := by
  have hfind := h.job_found hj
  cases hs : j.state with
  | created =>
    simp only [planTimeout, hs, ite_error_eq_ok, ofSdk_eq_ok] at hplan
    obtain ⟨hdue, hplan⟩ := hplan
    obtain ⟨ci, hci, hresolves⟩ := planExpireUnfunded_resolves hplan hs hfind
    exact ⟨.expireUnfunded, ci, ⟨hs, hdue⟩, hci, hresolves⟩
  | funded =>
    simp only [planTimeout, hs, ite_error_eq_ok, ofSdk_eq_ok] at hplan
    obtain ⟨hdue, hplan⟩ := hplan
    obtain ⟨ci, hci, hresolves⟩ := planResolveTimeoutRefund_resolves hplan (by simp [hs]) hfind
    exact ⟨.resolveTimeoutRefund, ci, Or.inl ⟨hs, hdue⟩, hci, hresolves⟩
  | accepted =>
    simp only [planTimeout, hs, ite_error_eq_ok, ofSdk_eq_ok] at hplan
    obtain ⟨hdue, hplan⟩ := hplan
    obtain ⟨ci, hci, hresolves⟩ := planResolveTimeoutRefund_resolves hplan (by simp [hs]) hfind
    exact ⟨.resolveTimeoutRefund, ci, Or.inr ⟨hs, hdue⟩, hci, hresolves⟩
  | submitted =>
    simp only [planTimeout, hs, ite_error_eq_ok, ofSdk_eq_ok] at hplan
    obtain ⟨hdue, hplan⟩ := hplan
    obtain ⟨ci, hci, hresolves⟩ := planResolveTimeoutSettle_resolves (by simpa [hs]) hfind
    exact ⟨.resolveTimeoutSettle, ci, Or.inl ⟨hs, hdue⟩, hci, hresolves⟩
  | challenged =>
    obtain ⟨k, c, hk, rfl⟩ := h.inv.linked.challenged hj hs
    have hfound := h.challenge_found hk
    simp only [planTimeout, hs, challengePda, bind_eq_ok, ofSdk_eq_ok, findPda_eq_ok, hfound,
      Option.some.injEq, Prod.mk.injEq, ensure_eq_ok, exists_const] at hplan
    obtain ⟨x, ⟨rfl, -⟩, acc, hacc, c', hc', -, hdue, hplan⟩ := hplan
    obtain rfl := Except.ok.inj ((fetch_of_record hk).symm.trans hacc)
    obtain rfl := Except.ok.inj ((decodeChallenge_of_record h hk).symm.trans hc')
    obtain ⟨ci, hci, hresolves⟩ := planResolveTimeoutSettle_resolves (by simpa [hs]) hfind
    exact ⟨.resolveTimeoutSettle, ci, Or.inr ⟨hs, c, openChallenge_of_record h hk,
      h.inv.valid _ _ hk, Int64.not_lt.mp hdue⟩, hci, hresolves⟩
  | _ =>
    simp only [planTimeout, hs] at hplan
    cases hplan

/-- What is due is planned. -/
theorem planTimeout_of_due (payer : Pubkey) (h : Sound P L)
    (hj : L.recordAt P.programId a = some (.job j)) (hd : Derivable P a j)
    (hdue : TimeoutDue P L a j now ix) :
    j.state.isTerminal = false ∧ ∃ plan, planTimeout P (.of L now) P.programId payer j.buyer
      j.provider j.mint a j.jobNonce j now = .ok plan := by
  have hfind := h.job_found hj
  cases ix with
  | expireUnfunded =>
    obtain ⟨hs, hdue⟩ := hdue
    obtain ⟨plan, hplan⟩ := planExpireUnfunded_succeeds payer hfind
    simp only [planTimeout, hs, if_pos hdue, ofSdk_eq_ok]
    exact ⟨rfl, plan, hplan⟩
  | resolveTimeoutRefund =>
    obtain ⟨plan, hplan⟩ := planResolveTimeoutRefund_succeeds payer hd hfind
    rcases hdue with ⟨hs, hdue⟩ | ⟨hs, hdue⟩
    · simp only [planTimeout, hs, if_pos hdue, ofSdk_eq_ok]
      exact ⟨rfl, plan, hplan⟩
    · simp only [planTimeout, hs, if_pos hdue, ofSdk_eq_ok]
      exact ⟨rfl, plan, hplan⟩
  | resolveTimeoutSettle =>
    rcases hdue with ⟨hs, hdue⟩ | ⟨hs, c, hc, -, hdue⟩
    · obtain ⟨plan, hplan⟩ := planResolveTimeoutSettle_succeeds payer hd false hfind (by simp)
      simp only [planTimeout, hs, if_pos hdue, ofSdk_eq_ok]
      exact ⟨rfl, plan, hplan⟩
    · obtain ⟨k, c', hk, rfl⟩ := h.inv.linked.challenged hj hs
      obtain rfl := Option.some.inj ((openChallenge_of_record h hk).symm.trans hc)
      have hfound := h.challenge_found hk
      obtain ⟨plan, hplan⟩ := planResolveTimeoutSettle_succeeds payer hd true hfind
        fun _ => ⟨_, hfound⟩
      simp only [planTimeout, hs, challengePda, bind_eq_ok, ofSdk_eq_ok, findPda_eq_ok, hfound,
        Option.some.injEq, Prod.mk.injEq, ensure_eq_ok, exists_const]
      exact ⟨rfl, plan, ⟨k, c'.bump⟩, ⟨rfl, rfl⟩, _, fetch_of_record hk, c',
        decodeChallenge_of_record h hk, rfl, Int64.not_lt.mpr hdue, hplan⟩
  | _ => cases hdue

theorem state_of_expireUnfunded (ctx : Ctx) (hj : L.recordAt P.programId m.key = some (.job j))
    (hm : ctx.accounts[1]? = some m) (h : expireUnfunded P ctx L = .ok (L', ev)) :
    j.state = .created := by
  unfold expireUnfunded at h
  split at h
  · rename_i hacc
    rw [hacc, List.getElem?_cons_succ, List.getElem?_cons_zero, Option.some.injEq] at hm
    subst hm
    simp only [bind_eq_ok, ensure_eq_ok, exists_const] at h
    obtain ⟨_, -, j', hj', hs, -⟩ := h
    obtain rfl := eq_of_loadValidatedJob hj hj'
    exact hs
  · cases h

theorem state_of_resolveTimeoutRefund (ctx : Ctx)
    (hj : L.recordAt P.programId m.key = some (.job j))
    (hm : ctx.accounts[1]? = some m) (h : resolveTimeoutRefund P ctx L = .ok (L', ev)) :
    j.state = .funded ∨ j.state = .accepted := by
  unfold resolveTimeoutRefund refundInternal at h
  split at h
  · rename_i hacc
    rw [hacc, List.getElem?_cons_succ, List.getElem?_cons_zero, Option.some.injEq] at hm
    subst hm
    simp only [bind_eq_ok] at h
    obtain ⟨_, -, _, -, j', hj', _, hdue, -⟩ := h
    obtain rfl := eq_of_loadValidatedJob hj hj'
    unfold refundDeadline at hdue
    split at hdue
    · exact Or.inl ‹_›
    · exact Or.inr ‹_›
    · cases hdue
  · cases h

theorem state_of_resolveTimeoutSettle (ctx : Ctx)
    (hj : L.recordAt P.programId m.key = some (.job j))
    (hm : ctx.accounts[1]? = some m) (h : resolveTimeoutSettle P ctx L = .ok (L', ev)) :
    j.state = .submitted ∨ j.state = .challenged := by
  unfold resolveTimeoutSettle at h
  split at h
  · rename_i hacc
    rw [hacc, List.getElem?_cons_succ, List.getElem?_cons_zero, Option.some.injEq] at hm
    subst hm
    simp only [bind_eq_ok] at h
    obtain ⟨_, -, _, -, _, -, j', hj', _, hdue, -⟩ := h
    obtain rfl := eq_of_loadValidatedJob hj hj'
    unfold settleDeadline at hdue
    split at hdue
    · exact Or.inl ‹_›
    · exact Or.inr ‹_›
    · cases hdue
  · cases h

theorem statusOpen_of_openChallenge {c : ChallengeAccount} (h : Sound P L)
    (hc : openChallenge P L a = some c) : c.status = ChallengeAccount.statusOpen := by
  simp only [openChallenge, Option.bind_eq_some_iff] at hc
  obtain ⟨_, -, r, hr, hc⟩ := hc
  cases r with
  | challenge c' =>
    obtain rfl := Option.some.inj hc
    exact h.inv.valid _ _ hr
  | _ => cases hc

/-- The clock decides about a timeout by the checks that the planner repeats. -/
theorem gated_timeout (h : Sound P L) (hj : L.recordAt P.programId m.key = some (.job j))
    (hix : ix = .expireUnfunded ∨ ix = .resolveTimeoutRefund ∨ ix = .resolveTimeoutSettle)
    (hparse : Instruction.parse data = .ok ix) (hm : ctx.accounts[1]? = some m) :
    Gated (fun t => process P (ctx.at t) L data) fun t => TimeoutDue P L m.key j t ix := by
  rcases hix with rfl | rfl | rfl
  · refine (gated_process h hj rfl hparse hm).congr fun t t' r hr => ?_
    rw [process_of_parse hparse] at hr
    have hs := state_of_expireUnfunded (ctx.at t') hj hm hr
    exact ⟨fun hg => ⟨hs, hg.1⟩, fun hdue => ⟨hdue.2, trivial⟩⟩
  · refine (gated_process h hj rfl hparse hm).congr fun t t' r hr => ?_
    rw [process_of_parse hparse] at hr
    rw [deadlineGuard_resolveTimeoutRefund, timeoutDue_resolveTimeoutRefund]
    rcases state_of_resolveTimeoutRefund (ctx.at t') hj hm hr with hs | hs
    · simp only [hs, if_true, true_and, reduceCtorEq, false_and, or_false]
      exact ⟨And.left, fun hdue => ⟨hdue, trivial⟩⟩
    · simp only [hs, if_false, true_and, reduceCtorEq, false_and, false_or]
      exact ⟨And.left, fun hdue => ⟨hdue, trivial⟩⟩
  · refine (gated_process h hj rfl hparse hm).congr fun t t' r hr => ?_
    rw [process_of_parse hparse] at hr
    rw [deadlineGuard_resolveTimeoutSettle, timeoutDue_resolveTimeoutSettle]
    rcases state_of_resolveTimeoutSettle (ctx.at t') hj hm hr with hs | hs
    · simp only [hs, if_false, true_and, reduceCtorEq, false_and, or_false]
      exact ⟨And.left, fun hdue => ⟨hdue, trivial⟩⟩
    · simp only [hs, if_true, true_and, reduceCtorEq, false_and, false_or]
      constructor
      · rintro ⟨⟨c, hc, hdue⟩, -⟩
        exact ⟨c, hc, statusOpen_of_openChallenge h hc, hdue⟩
      · rintro ⟨c, hc, -, hdue⟩
        exact ⟨⟨c, hc, hdue⟩, trivial⟩

end Agreement

namespace Sample

def appConfig : AppConfig :=
  { programId := keyToText programId, settlementMint := keyToText mint,
    tokenProgram := keyToText tokenProgramId }

def timeoutRequest : TimeoutRequest :=
  { payer := keyToText admin, buyer := keyToText buyer, provider := keyToText provider,
    jobNonce := 7 }

theorem asks_timeoutRequest : timeoutRequest.Asks platform appConfig submittedJob where
  program := Base58.decodeKey_encode _
  mint := Base58.decodeKey_encode _
  tokenProgram := Base58.decodeKey_encode _
  payer := ⟨_, Base58.decodeKey_encode _⟩
  buyer := Base58.decodeKey_encode _
  provider := Base58.decodeKey_encode _
  nonce := rfl

theorem derivable_submittedJob : Derivable platform jobKey submittedJob where
  bond := ⟨(bondKey, 255), by decide⟩
  escrow := ⟨escrow, by decide⟩
  providerToken := ⟨providerToken, by decide⟩
  buyerToken := ⟨buyerToken, by decide⟩

end Sample

end AgentBond
