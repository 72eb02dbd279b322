import AgentBond.App.Planner
import AgentBond.App.ReceiptDto
import AgentBond.Sdk.Built

/-! # Plans on request

The gateway turns a request into a plan. What it answers with is a plan for what
was asked, which the party named in the request signs and nobody else.
-/

namespace AgentBond

open Foundation Text Panicking

structure CreateJobRequest where
  buyer : Text
  provider : Text
  jobNonce : UInt64
  amount : UInt64
  requestHashHex : Text
  fundDeadline : Int64
  acceptDeadline : Int64
  workDeadline : Int64
  autoSettleDeadline : Int64

/-- The requests that name a job by its seeds, to fund it or to accept it or its work. -/
structure JobRequest where
  buyer : Text
  provider : Text
  jobNonce : UInt64

abbrev FundJobRequest := JobRequest
abbrev AcceptJobRequest := JobRequest
abbrev AcceptWorkRequest := JobRequest

structure SubmitReceiptRequest where
  job : Text
  provider : Text
  receipt : ReceiptDto
  executionPubkeyHex : Text
  signatureHex : Text

structure ChallengeRequest where
  buyer : Text
  provider : Text
  jobNonce : UInt64
  reasonHashHex : Text

namespace InstructionPlan

def withMintAmount (plan : InstructionPlan) (mint : Pubkey) (amount : UInt64) : InstructionPlan :=
  { plan with mint := some (keyToText mint), amount := some amount }

end InstructionPlan

section Services

variable (P : Platform) (cfg : AppConfig) (reader : ChainReader)

def buildCreateJobPlan (req : CreateJobRequest) : Panicking AppError InstructionPlan := do
  let programId ← checked cfg.programPubkey
  let buyer ← checked (pk req.buyer "buyer")
  let provider ← checked (pk req.provider "provider")
  let requestHash ← hex32 req.requestHashHex "request_hash"
  let now ← checked (ofSdk reader.getUnixTimestamp)
  let payload : CreateJobPayload :=
    { jobNonce := req.jobNonce, amount := req.amount, requestHash,
      fundDeadline := req.fundDeadline, acceptDeadline := req.acceptDeadline,
      workDeadline := req.workDeadline, autoSettleDeadline := req.autoSettleDeadline }
  let mint ← checked cfg.mintPubkey
  let plan ← checked (ofSdk (planCreateJob P programId buyer provider now payload))
  pure (plan.withMintAmount mint req.amount)

def buildFundJobPlan (req : FundJobRequest) : Served InstructionPlan := do
  let programId ← cfg.programPubkey
  let mint ← cfg.mintPubkey
  let buyer ← pk req.buyer "buyer"
  let provider ← pk req.provider "provider"
  ofSdk (planFundJob P programId buyer provider mint req.jobNonce)

def buildAcceptJobPlan (req : AcceptJobRequest) : Served InstructionPlan := do
  let programId ← cfg.programPubkey
  let mint ← cfg.mintPubkey
  let provider ← pk req.provider "provider"
  let buyer ← pk req.buyer "buyer"
  ofSdk (planAcceptJob P programId provider buyer mint req.jobNonce)

def buildSubmitReceiptPlanUc (req : SubmitReceiptRequest) : Panicking AppError InstructionPlan := do
  let programId ← checked cfg.programPubkey
  let job ← checked (pk req.job "job")
  let provider ← checked (pk req.provider "provider")
  let pubkey ← hex32 req.executionPubkeyHex "execution_pubkey"
  let signature ← hex64 req.signatureHex "signature"
  let receipt ← req.receipt.toReceipt
  let now ← checked (ofSdk reader.getUnixTimestamp)
  checked (ofSdk
    (buildSubmitReceiptPlanAt P programId job provider receipt pubkey signature (some now)))

def buildAcceptWorkPlan (req : AcceptWorkRequest) : Served InstructionPlan := do
  let programId ← cfg.programPubkey
  let mint ← cfg.mintPubkey
  let buyer ← pk req.buyer "buyer"
  let provider ← pk req.provider "provider"
  ofSdk (planAcceptWork P programId buyer provider mint req.jobNonce)

def buildChallengePlan (req : ChallengeRequest) : Panicking AppError InstructionPlan := do
  let programId ← checked cfg.programPubkey
  let reason ← hex32 req.reasonHashHex "reason_hash"
  let buyer ← checked (pk req.buyer "buyer")
  let provider ← checked (pk req.provider "provider")
  checked (ofSdk (planChallengeWork P programId buyer provider req.jobNonce reason))

/-- A request to the gateway for a plan. -/
inductive PlanRequest
  | create (req : CreateJobRequest)
  | fund (req : FundJobRequest)
  | accept (req : AcceptJobRequest)
  | submitReceipt (req : SubmitReceiptRequest)
  | acceptWork (req : AcceptWorkRequest)
  | challenge (req : ChallengeRequest)
  | resolveTimeout (req : TimeoutRequest)

def servePlan : PlanRequest → Panicking AppError InstructionPlan
  | .create req => buildCreateJobPlan P cfg reader req
  | .fund req => checked (buildFundJobPlan P cfg req)
  | .accept req => checked (buildAcceptJobPlan P cfg req)
  | .submitReceipt req => buildSubmitReceiptPlanUc P cfg reader req
  | .acceptWork req => checked (buildAcceptWorkPlan P cfg req)
  | .challenge req => buildChallengePlan P cfg req
  | .resolveTimeout req => checked (buildTimeoutPlan P cfg reader req)

end Services

namespace PlanRequest

/-- Who is to sign: a receipt is signed by the execution key it comes with. -/
def actor : PlanRequest → Option Text
  | create req => some req.buyer
  | fund req | acceptWork req => some req.buyer
  | accept req => some req.provider
  | submitReceipt _ => none
  | challenge req => some req.buyer
  | resolveTimeout req => some req.payer

/-- What a timeout of a job asks for, by the state the job is in. -/
def timeoutAsk (payer buyer provider mint : Pubkey) (nonce : UInt64) : JobState → Option Ask
  | .created => some (.expireUnfunded payer buyer provider nonce)
  | .funded | .accepted => some (.resolveTimeoutRefund payer buyer provider mint nonce)
  | .submitted => some (.resolveTimeoutSettle payer buyer provider mint nonce false)
  | .challenged => some (.resolveTimeoutSettle payer buyer provider mint nonce true)
  | _ => none

theorem signer_of_timeoutAsk {payer buyer provider mint : Pubkey} {nonce : UInt64} {s : JobState}
    {ask : Ask} (h : timeoutAsk payer buyer provider mint nonce s = some ask) :
    ask.signer = some payer := by
  cases s <;> cases h <;> rfl

/-- The parties a request names, and the mint of the configuration. -/
structure Names (cfg : AppConfig) (buyerText providerText : Text) (buyer provider mint : Pubkey) :
    Prop where
  buyer : Base58.decodeKey buyerText = some buyer
  provider : Base58.decodeKey providerText = some provider
  mint : Base58.decodeKey cfg.settlementMint = some mint

/-- What the request asks for, of the parties it names. A timeout is asked for by the state of the
job that the reader finds at the job's address. -/
inductive Asks (P : Platform) (cfg : AppConfig) (reader : ChainReader) (programId : Pubkey) :
    PlanRequest → Ask → Prop
  | create {req buyer provider mint hash now}
      (names : Names cfg req.buyer req.provider buyer provider mint)
      (hash_eq : Returns (hex32 req.requestHashHex "request_hash") (.ok hash))
      (now_eq : reader.getUnixTimestamp = .ok now) :
      Asks P cfg reader programId (.create req) (.createJob buyer provider now
        { jobNonce := req.jobNonce, amount := req.amount, requestHash := hash,
          fundDeadline := req.fundDeadline, acceptDeadline := req.acceptDeadline,
          workDeadline := req.workDeadline, autoSettleDeadline := req.autoSettleDeadline })
  | fund {req buyer provider mint} (names : Names cfg req.buyer req.provider buyer provider mint) :
      Asks P cfg reader programId (.fund req) (.fundJob buyer provider mint req.jobNonce)
  | accept {req buyer provider mint}
    (names : Names cfg req.buyer req.provider buyer provider mint) :
      Asks P cfg reader programId (.accept req) (.acceptJob provider buyer mint req.jobNonce)
  | submitReceipt {req job provider receipt key signature now}
      (job_eq : Base58.decodeKey req.job = some job)
      (provider_eq : Base58.decodeKey req.provider = some provider)
      (receipt_eq : Returns req.receipt.toReceipt (.ok receipt))
      (key_eq : Returns (hex32 req.executionPubkeyHex "execution_pubkey") (.ok key))
      (signature_eq : Returns (hex64 req.signatureHex "signature") (.ok signature))
      (now_eq : reader.getUnixTimestamp = .ok now) :
      Asks P cfg reader programId (.submitReceipt req)
        (.submitReceipt job provider receipt key signature (some now))
  | acceptWork {req buyer provider mint}
      (names : Names cfg req.buyer req.provider buyer provider mint) :
      Asks P cfg reader programId (.acceptWork req) (.acceptWork buyer provider mint req.jobNonce)
  | challenge {req buyer provider reason} (buyer_eq : Base58.decodeKey req.buyer = some buyer)
      (provider_eq : Base58.decodeKey req.provider = some provider)
      (reason_eq : Returns (hex32 req.reasonHashHex "reason_hash") (.ok reason)) :
      Asks P cfg reader programId (.challenge req)
        (.challengeWork buyer provider req.jobNonce reason)
  | resolveTimeout {req payer buyer provider mint job j ask}
      (names : Names cfg req.buyer req.provider buyer provider mint)
      (payer_eq : Base58.decodeKey req.payer = some payer)
      (job_eq : (Role.job buyer provider req.jobNonce).address P programId = some job)
      (read : inspectJob P reader programId job = .ok j)
      (ask_eq : timeoutAsk payer buyer provider mint req.jobNonce j.state = some ask) :
      Asks P cfg reader programId (.resolveTimeout req) ask

end PlanRequest

section Served

variable {P : Platform} {cfg : AppConfig} {reader : ChainReader} {plan : InstructionPlan}

@[simp] theorem returns_checked_iff {ε α : Type} {r r' : Except ε α} :
    Returns (checked r) r' ↔ r = r' :=
  Option.some_inj

section Timeout

variable {programId payer buyer provider mint job : Pubkey} {nonce : UInt64} {j : JobAccount}
  {now : Int64}

theorem builder_of_planTimeout
    (h : planTimeout P reader programId payer buyer provider mint job nonce j now = .ok plan) :
    (j.state = .created ∧ planExpireUnfunded P programId payer buyer provider nonce = .ok plan) ∨
      ((j.state = .funded ∨ j.state = .accepted) ∧
        planResolveTimeoutRefund P programId payer buyer provider mint nonce = .ok plan) ∨
      ((j.state = .submitted ∨ j.state = .challenged) ∧ planResolveTimeoutSettle P programId payer
        buyer provider mint nonce (decide (j.state = .challenged)) = .ok plan) := by
  cases hs : j.state with
  | created =>
    simp only [planTimeout, hs, ite_error_eq_ok, ofSdk_eq_ok] at h
    exact .inl ⟨rfl, h.2⟩
  | funded | accepted =>
    simp only [planTimeout, hs, ite_error_eq_ok, ofSdk_eq_ok] at h
    exact .inr (.inl ⟨by simp, h.2⟩)
  | submitted =>
    simp only [planTimeout, hs, ite_error_eq_ok, ofSdk_eq_ok] at h
    exact .inr (.inr ⟨by simp, by simpa using h.2⟩)
  | challenged =>
    simp only [planTimeout, hs, bind_eq_ok, ofSdk_eq_ok, ensure_eq_ok, exists_const] at h
    obtain ⟨_, -, _, -, _, -, -, -, hplan⟩ := h
    exact .inr (.inr ⟨by simp, by simpa using hplan⟩)
  | _ =>
    simp only [planTimeout, hs] at h
    cases h

/-- What is planned for a timeout is what the state of the job asks for. -/
theorem asks_of_planTimeout
    (h : planTimeout P reader programId payer buyer provider mint job nonce j now = .ok plan) :
    ∃ ask, PlanRequest.timeoutAsk payer buyer provider mint nonce j.state = some ask ∧
      ask.build P programId = .ok plan := by
  rcases builder_of_planTimeout h with ⟨hs, hplan⟩ | ⟨hs | hs, hplan⟩ | ⟨hs | hs, hplan⟩
  · exact ⟨.expireUnfunded payer buyer provider nonce, by rw [hs]; rfl, hplan⟩
  · exact ⟨.resolveTimeoutRefund payer buyer provider mint nonce, by rw [hs]; rfl, hplan⟩
  · exact ⟨.resolveTimeoutRefund payer buyer provider mint nonce, by rw [hs]; rfl, hplan⟩
  · rw [hs] at hplan
    exact ⟨.resolveTimeoutSettle payer buyer provider mint nonce false, by rw [hs]; rfl, hplan⟩
  · rw [hs] at hplan
    exact ⟨.resolveTimeoutSettle payer buyer provider mint nonce true, by rw [hs]; rfl, hplan⟩

end Timeout

/-- The plan was built for what is asked, and is for whom the request names to sign. -/
structure ServedBy (P : Platform) (cfg : AppConfig) (reader : ChainReader) (req : PlanRequest)
    (plan : InstructionPlan) (programId : Pubkey) (ask : Ask) : Prop where
  program : Base58.decodeKey cfg.programId = some programId
  asks : req.Asks P cfg reader programId ask
  built : ∃ built, ask.build P programId = .ok built ∧
    (plan = built ∨ ∃ mint amount, plan = built.withMintAmount mint amount)

theorem PlanRequest.Asks.actor_eq {req : PlanRequest} {programId : Pubkey} {ask : Ask}
    (h : req.Asks P cfg reader programId ask) : req.actor.bind Base58.decodeKey = ask.signer := by
  cases h with
  | create names | fund names | acceptWork names => exact names.buyer
  | accept names => exact names.provider
  | challenge buyer_eq => exact buyer_eq
  | submitReceipt => rfl
  | resolveTimeout _ payer_eq _ _ ask_eq =>
    exact payer_eq.trans (signer_of_timeoutAsk ask_eq).symm

theorem served_by {req : PlanRequest} (h : Returns (servePlan P cfg reader req) (.ok plan)) :
    ∃ programId ask, ServedBy P cfg reader req plan programId ask := by
  cases req with
  | create req =>
    simp only [servePlan, buildCreateJobPlan, returns_bind_ok, returns_checked_iff, ofSdk_eq_ok,
      AppConfig.programPubkey, AppConfig.mintPubkey, parsePk_eq_ok, pk_eq_ok] at h
    obtain ⟨program, hprogram, buyer, hbuyer, provider, hprovider, hash, hhash, now, hnow, mint,
      hmint, built, hbuilt, hplan⟩ := h
    cases (returns_pure _).unique hplan
    exact ⟨program, _, hprogram, .create ⟨hbuyer, hprovider, hmint⟩ hhash hnow, built, hbuilt,
      .inr ⟨mint, _, rfl⟩⟩
  | fund req =>
    simp only [servePlan, buildFundJobPlan, returns_checked_iff, bind_eq_ok, ofSdk_eq_ok,
      AppConfig.programPubkey, AppConfig.mintPubkey, parsePk_eq_ok, pk_eq_ok] at h
    obtain ⟨program, hprogram, mint, hmint, buyer, hbuyer, provider, hprovider, hbuilt⟩ := h
    exact ⟨program, _, hprogram, .fund ⟨hbuyer, hprovider, hmint⟩, plan, hbuilt, .inl rfl⟩
  | accept req =>
    simp only [servePlan, buildAcceptJobPlan, returns_checked_iff, bind_eq_ok, ofSdk_eq_ok,
      AppConfig.programPubkey, AppConfig.mintPubkey, parsePk_eq_ok, pk_eq_ok] at h
    obtain ⟨program, hprogram, mint, hmint, provider, hprovider, buyer, hbuyer, hbuilt⟩ := h
    exact ⟨program, _, hprogram, .accept ⟨hbuyer, hprovider, hmint⟩, plan, hbuilt, .inl rfl⟩
  | submitReceipt req =>
    simp only [servePlan, buildSubmitReceiptPlanUc, returns_bind_ok, returns_checked_iff,
      ofSdk_eq_ok, AppConfig.programPubkey, parsePk_eq_ok, pk_eq_ok] at h
    obtain ⟨program, hprogram, job, hjob, provider, hprovider, key, hkey, signature, hsignature,
      receipt, hreceipt, now, hnow, hbuilt⟩ := h
    exact ⟨program, _, hprogram, .submitReceipt hjob hprovider hreceipt hkey hsignature hnow, plan,
      hbuilt, .inl rfl⟩
  | acceptWork req =>
    simp only [servePlan, buildAcceptWorkPlan, returns_checked_iff, bind_eq_ok, ofSdk_eq_ok,
      AppConfig.programPubkey, AppConfig.mintPubkey, parsePk_eq_ok, pk_eq_ok] at h
    obtain ⟨program, hprogram, mint, hmint, buyer, hbuyer, provider, hprovider, hbuilt⟩ := h
    exact ⟨program, _, hprogram, .acceptWork ⟨hbuyer, hprovider, hmint⟩, plan, hbuilt, .inl rfl⟩
  | challenge req =>
    simp only [servePlan, buildChallengePlan, returns_bind_ok, returns_checked_iff, ofSdk_eq_ok,
      AppConfig.programPubkey, parsePk_eq_ok, pk_eq_ok] at h
    obtain ⟨program, hprogram, reason, hreason, buyer, hbuyer, provider, hprovider, hbuilt⟩ := h
    exact ⟨program, _, hprogram, .challenge hbuyer hprovider hreason, plan, hbuilt, .inl rfl⟩
  | resolveTimeout req =>
    simp only [servePlan, buildTimeoutPlan, returns_checked_iff, bind_eq_ok, ensure_eq_ok,
      exists_const, ofSdk_eq_ok, AppConfig.programPubkey, AppConfig.mintPubkey, parsePk_eq_ok,
      pk_eq_ok, jobPda, findPda_eq_ok] at h
    obtain ⟨program, hprogram, mint, hmint, _, -, buyer, hbuyer, provider, hprovider, payer, hpayer,
      job, hjob, j, hj, now, -, -, -, hplan⟩ := h
    obtain ⟨ask, hask, hbuilt⟩ := asks_of_planTimeout hplan
    exact ⟨program, ask, hprogram, .resolveTimeout ⟨hbuyer, hprovider, hmint⟩ hpayer
      (by simp [hjob]) hj hask, plan, hbuilt, .inl rfl⟩

/-- Whatever the requests and the answers of the node: a plan that is served carries the instruction
that was asked for, with the accounts it takes for the parties the request names, asks the one the
request names to sign and nobody else, and passes the check of the client that sends it until it
expires. -/
theorem served_plan_accepted {req : PlanRequest}
    (h : Returns (servePlan P cfg reader req) (.ok plan)) :
    ∃ programId ask, Base58.decodeKey cfg.programId = some programId ∧
      req.Asks P cfg reader programId ask ∧ req.actor.bind Base58.decodeKey = ask.signer ∧
      (∃ ixs, plan.toSolanaInstructions = .ok ixs ∧ Carries P programId ask ixs) ∧
      plan.requiredSigners = ask.signer.toList.map keyToText ∧
      ∀ now, validatePlanInstructions plan programId now = .ok () ↔
        ∀ expires, plan.expiresAt = some expires → now ≤ expires := by
  obtain ⟨programId, ask, hprogram, hasks, built, hbuilt, hplan⟩ := served_by h
  have haccepted := And.intro (Ask.carried hbuilt) (Ask.passes hbuilt)
  refine ⟨programId, ask, hprogram, hasks, hasks.actor_eq, ?_⟩
  -- The mint and the amount are shown to the user, and not checked.
  rcases hplan with rfl | ⟨mint, amount, rfl⟩
  · exact haccepted
  · exact haccepted

end Served

namespace Sample

def acceptWorkRequest : AcceptWorkRequest :=
  { buyer := keyToText buyer, provider := keyToText provider, jobNonce := 7 }

/-- The buyer of the sample job is served a plan to accept the work. -/
theorem served_plan_accepted_accepting :
    ∃ plan, Returns (servePlan platform appConfig (.of submittedLedger 300)
        (.acceptWork acceptWorkRequest)) (.ok plan) ∧
      plan.requiredSigners = [keyToText buyer] ∧
      ∀ now, validatePlanInstructions plan programId now = .ok () := by
  have hprogram : Base58.decodeKey appConfig.programId = some programId := Base58.decodeKey_encode _
  have hbuyer : Base58.decodeKey acceptWorkRequest.buyer = some buyer := Base58.decodeKey_encode _
  obtain ⟨bond, hbond⟩ := derivable_submittedJob.bond
  obtain ⟨escrow, hescrow⟩ := derivable_submittedJob.escrow
  obtain ⟨providerToken, hprovider⟩ := derivable_submittedJob.providerToken
  obtain ⟨buyerToken, hbuyerToken⟩ := derivable_submittedJob.buyerToken
  have hjob : platform.tryFindProgramAddress (jobSeedParts buyer provider 7) programId =
      some (jobKey, 255) := by decide
  obtain ⟨plan, hplan, hexpires⟩ : ∃ plan,
      planAcceptWork platform programId buyer provider mint 7 = .ok plan ∧
        plan.expiresAt = none := by
    simp only [planAcceptWork, jobPda, providerBondPda, jobEscrowAta, userSettlementAta, bind_eq_ok,
      findPda_eq_ok, associatedAddress_eq_ok, Except.ok.injEq]
    exact ⟨_,
      ⟨⟨jobKey, 255⟩, hjob, ⟨bond.1, bond.2⟩, hbond, escrow, hescrow, providerToken, hprovider,
      buyerToken, hbuyerToken, _, emptyData_succeeds rfl, rfl⟩, rfl⟩
  have hserved : Returns (servePlan platform appConfig (.of submittedLedger 300)
      (.acceptWork acceptWorkRequest)) (.ok plan) := by
    simp only [servePlan, buildAcceptWorkPlan, returns_checked_iff, bind_eq_ok, ofSdk_eq_ok,
      AppConfig.programPubkey, AppConfig.mintPubkey, parsePk_eq_ok, pk_eq_ok]
    exact ⟨programId, hprogram, mint, Base58.decodeKey_encode _, buyer, hbuyer, provider,
      Base58.decodeKey_encode _, hplan⟩
  obtain ⟨program, ask, hprogram', -, hactor, -, hrequired, haccepted⟩ :=
    served_plan_accepted hserved
  cases hprogram.symm.trans hprogram'
  have hsigner : ask.signer = some buyer := hactor.symm.trans ((Option.bind_some ..).trans hbuyer)
  rw [hsigner] at hrequired
  refine ⟨plan, hserved, hrequired, fun now => (haccepted now).mpr fun expires he => ?_⟩
  cases hexpires.symm.trans he

end Sample

end AgentBond
