import AgentBond.Chain.Bonds
import AgentBond.Chain.Deadlines
import AgentBond.Chain.Funding
import AgentBond.Chain.Recourse

/-! # Calls that wait for their time

A call may be in order in everything but the clock. It goes through exactly
while its deadline check passes, so that the deadlines of a job decide which of
two such calls the program carries out.
-/

namespace AgentBond

open Foundation Protocol

section Receipts

variable {P : Platform} {ctx : Ctx} {L L' : Ledger} {a config providerKey key : Pubkey}
  {j : JobAccount} {receipt : AgentBondWorkReceiptV1}

/-- The receipt is about the job and in time, and a registered key of the provider has signed it. -/
structure Receivable (P : Platform) (L : Ledger) (now : Int64) (j : JobAccount)
    (receipt : AgentBondWorkReceiptV1) (key : Pubkey) : Prop where
  accepted : j.state = .accepted
  in_time : now ≤ j.workDeadline ∧ now ≤ receipt.expiresAt ∧ receipt.createdAt ≤ now
  configured : ∃ config c, L.recordAt P.programId config = some (.config c) ∧
    receipt.genesisHash = c.genesisHash
  registered : ∃ providerKey p, L.recordAt P.programId providerKey = some (.provider p) ∧
    p.authority = j.provider ∧ key ∈ p.keySet
  buyer_eq : receipt.buyer = j.buyer
  request_eq : receipt.requestHash = j.requestHash
  nonce_eq : receipt.jobNonce = j.jobNonce

/-- The receipt is sent to the program behind its signature, with the job it names. -/
structure ReceiptCall (P : Platform) (ctx : Ctx) (L : Ledger) (a : Pubkey) (j : JobAccount)
    (receipt : AgentBondWorkReceiptV1) (key : Pubkey) : Prop where
  accounts : ∃ config c providerKey p, ctx.accounts =
      [.newReadonly config false, .newReadonly providerKey false, .new a false,
        .newReadonly instructionsSysvarId false] ∧
    L.recordAt P.programId config = some (.config c) ∧
    L.recordAt P.programId providerKey = some (.provider p) ∧ p.authority = j.provider
  program_eq : receipt.programId = P.programId
  job_eq : receipt.job = a
  provider_eq : receipt.provider = j.provider
  signed : ∃ message, receipt.encode = .ok message ∧
    verifyPrecedingEd25519 ctx (.newReadonly instructionsSysvarId false) message = .ok key

/-- The job is submitted, under the digest of its receipt. -/
def submittedWith (j : JobAccount) (digest : Pubkey) : JobAccount :=
  { j with receiptDigest := digest, state := .submitted }

def SubmitEffect (P : Platform) (L L' : Ledger) (a : Pubkey) (j : JobAccount)
    (receipt : AgentBondWorkReceiptV1) : Prop :=
  ∃ digest, receipt.digest P.sha256 = .ok digest ∧
    abs P L' = (abs P L).put a (.job (submittedWith j digest))

theorem submitReceipt_succeeds (h : Reached P L) (hj : L.recordAt P.programId a = some (.job j))
    (hready : Receivable P L ctx.now j receipt key) (hcall : ReceiptCall P ctx L a j receipt key) :
    ∃ L' ev, submitReceipt P ctx L receipt = .ok (L', ev) ∧ SubmitEffect P L L' a j receipt := by
  have hs := Sound.of_reached h
  have hfound := hs.inv.found
  obtain ⟨config, c, providerKey, p, hctx, hc, hp, hauthority⟩ := hcall.accounts
  obtain ⟨message, hmessage, hsigned⟩ := hcall.signed
  -- There is one configuration, and one account for the provider.
  obtain ⟨config', c', hc', hgenesis⟩ := hready.configured
  obtain rfl : config' = config := hfound.eq_of_seeds hc' hc rfl
  obtain rfl : c' = c := by simpa using hc'.symm.trans hc
  obtain ⟨providerKey', p', hp', hauthority', hkey⟩ := hready.registered
  have hseeds : (Record.provider p').seeds = (Record.provider p).seeds := by
    rw [Record.seeds, Record.seeds, hauthority', hauthority]
  obtain rfl : providerKey' = providerKey := hfound.eq_of_seeds hp' hp hseeds
  obtain rfl : p' = p := by simpa using hp'.symm.trans hp
  obtain ⟨L', hsave⟩ := saveJob_succeeds (L := L) (m := .new a false)
    (j := submittedWith j (P.sha256 message)) rfl (len_of_job hj)
  have hsaved := saved_of_saveJob hsave (Ledger.owner_of_recordAt hj)
  have hdigest : receipt.digest P.sha256 = .ok (P.sha256 message) := by
    simp only [AgentBondWorkReceiptV1.digest, bind_eq_ok]
    exact ⟨message, hmessage, rfl⟩
  refine ⟨L', emit ctx .receiptSubmitted a key 0, ?_, _, hdigest, hsaved.abs_eq⟩
  simp only [submitReceipt, hctx, bind_eq_ok, requireWritable, loadValidatedConfigReadonly,
    requireReadonly, loadValidatedConfig_eq_ok, loadValidatedProvider_eq_ok,
    loadValidatedJob_eq_ok, checkReceiptFields, transitionJob_eq_ok, orFail_eq_ok, ensure_eq_ok,
    exists_const]
  exact ⟨rfl, c', ⟨rfl, hc, hfound.address hc⟩, p', ⟨hp, hfound.address hp⟩,
    (Keyed.of_reached h _ _ hp p' rfl).1, j, ⟨hj, hfound.address hj⟩, hready.accepted,
    hauthority.symm, hready.in_time.1, hready.in_time.2.1, hready.in_time.2.2,
    ⟨hcall.program_eq, hgenesis, hcall.job_eq, hready.buyer_eq, hcall.provider_eq,
      hready.request_eq, hready.nonce_eq⟩, message, hmessage, key, hsigned,
    ProviderAccount.containsExecutionKey_iff.mpr hkey, _, hdigest, _,
    ⟨by rw [hready.accepted]; rfl, rfl⟩, L', hsave, rfl⟩

end Receipts

section Prepared

variable {P : Platform} {ctx : Ctx} {L L' : Ledger} {a k : Pubkey} {j : JobAccount}
  {c : ChallengeAccount} {ix : Instruction} {data : List UInt8}

/-- A call on the job that is in order in everything but the clock: its accounts are those of the
job, the job is in the state the instruction starts from, and every token account, bond or payer
that the instruction needs is there. What only the clock decides may hold at another time. -/
inductive Prepared (P : Platform) (L : Ledger) (a : Pubkey) (j : JobAccount) (ctx : Ctx) :
    Instruction → Prop
  | fundJob {config buyerToken escrow : Pubkey} {te : TokenAccount} {t : Int64}
      (call : FundCall P ctx a config j buyerToken escrow)
      (ready : Fundable P L t a config j buyerToken escrow te) (mint : MintReady L j)
      (empty : te.amount = 0) : Prepared P L a j ctx .fundJob
  | expireUnfunded {payer : AccountMeta} {rest : List AccountMeta}
      (accounts : ctx.accounts = payer :: .new a false :: rest) (created : j.state = .created) :
      Prepared P L a j ctx .expireUnfunded
  | acceptJob {config providerKey k : Pubkey} {c : ConfigAccount} {b : ProviderBondAccount}
      {t : Int64} (call : AcceptCall ctx a config providerKey k j)
      (ready : Acceptable P L t a config providerKey k j c b)
      (room : c.minProviderBond.toNat + lockedByJobs P L b.provider b.mint ≤ b.deposited.toNat) :
      Prepared P L a j ctx .acceptJob
  | submitReceipt {receipt : AgentBondWorkReceiptV1} {key : Pubkey} {t : Int64}
      (call : ReceiptCall P ctx L a j receipt key) (ready : Receivable P L t j receipt key) :
      Prepared P L a j ctx (.submitReceipt receipt)
  | challengeWork {reasonHash k : Pubkey} {t : Int64} (job : ctx.accounts[2]? = some (.new a false))
      (call : CreationCall P (ctx.at t) L (.challengeWork reasonHash) k)
      (empty : (L.account k).lamports = 0) : Prepared P L a j ctx (.challengeWork reasonHash)
  | resolveTimeoutRefund {bond escrow buyerToken : Pubkey}
      (call : RefundCall P ctx a j bond escrow buyerToken)
      (waiting : j.state = .funded ∨ j.state = .accepted)
      (buyer : OrdinaryAt L buyerToken j.mint j.buyer) (thawed : ThawedAt L escrow) :
      Prepared P L a j ctx .resolveTimeoutRefund
  | expireUnaccepted {bond escrow buyerToken : Pubkey}
      (call : RefundCall P ctx a j bond escrow buyerToken) (funded : j.state = .funded)
      (buyer : OrdinaryAt L buyerToken j.mint j.buyer) (thawed : ThawedAt L escrow) :
      Prepared P L a j ctx .expireUnaccepted
  | resolveTimeoutSettle {bond escrow providerToken buyerToken challenge : Pubkey}
      (call : SettleCall P ctx a j bond escrow providerToken buyerToken challenge)
      (worked : j.state = .submitted ∨ j.state = .challenged)
      (provider : OrdinaryAt L providerToken j.mint j.provider)
      (buyer : OrdinaryAt L buyerToken j.mint j.buyer) (thawed : ThawedAt L escrow) :
      Prepared P L a j ctx .resolveTimeoutSettle
  | slashBond {configKey bond vault escrow buyerToken challenge : Pubkey} {c : ConfigAccount}
      (config_at : L.recordAt P.programId configKey = some (.config c))
      (call : SlashCall P ctx a j c.admin configKey bond vault escrow buyerToken challenge)
      (challenged : j.state = .challenged) (wallet : P.Wallet j.buyer)
      (buyer : OrdinaryAt L buyerToken j.mint j.buyer) (thawed : ThawedAt L escrow)
      (vault_at : ThawedAt L vault) : Prepared P L a j ctx .slashBond

theorem Prepared.position (h : Prepared P L a j ctx ix) :
    ∃ i m, jobPosition ix = some i ∧ ctx.accounts[i]? = some m ∧ m.key = a := by
  cases h with
  | fundJob call =>
    obtain ⟨buyer, -, -, hctx⟩ := call.accounts
    exact ⟨2, .new a false, rfl, by rw [hctx]; rfl, rfl⟩
  | expireUnfunded accounts => exact ⟨1, .new a false, rfl, by rw [accounts]; rfl, rfl⟩
  | acceptJob call => exact ⟨4, .new a false, rfl, by rw [call.accounts]; rfl, rfl⟩
  | submitReceipt call =>
    obtain ⟨config, c, providerKey, p, hctx, -⟩ := call.accounts
    exact ⟨2, .new a false, rfl, by rw [hctx]; rfl, rfl⟩
  | challengeWork job => exact ⟨2, .new a false, rfl, job, rfl⟩
  | resolveTimeoutRefund call =>
    obtain ⟨payer, hctx⟩ := call.accounts
    exact ⟨1, .new a false, rfl, by rw [hctx]; rfl, rfl⟩
  | expireUnaccepted call =>
    obtain ⟨payer, hctx⟩ := call.accounts
    exact ⟨1, .new a false, rfl, by rw [hctx]; rfl, rfl⟩
  | resolveTimeoutSettle call =>
    obtain ⟨payer, hctx⟩ := call.accounts
    exact ⟨1, .new a false, rfl, by rw [hctx]; rfl, rfl⟩
  | slashBond _ call => exact ⟨2, .new a false, rfl, by rw [call.accounts]; rfl, rfl⟩

theorem expireUnfunded_succeeds {payer : AccountMeta} {rest : List AccountMeta} (h : Sound P L)
    (hj : L.recordAt P.programId a = some (.job j))
    (hctx : ctx.accounts = payer :: .new a false :: rest) (hs : j.state = .created)
    (hdue : j.fundDeadline ≤ ctx.now) : ∃ L' ev, expireUnfunded P ctx L = .ok (L', ev) ∧
      L'.recordAt P.programId a = some (.job { j with state := .expired }) := by
  obtain ⟨L', hsave⟩ := saveJob_succeeds (L := L) (m := .new a false)
    (j := { j with state := .expired }) rfl (len_of_job hj)
  have hsaved := saved_of_saveJob hsave (Ledger.owner_of_recordAt hj)
  refine ⟨L', emit ctx .jobExpired a j.buyer 0, ?_, ?_⟩
  · rw [expireUnfunded, hctx]
    simp only [bind_eq_ok, requireWritable, ensure_eq_ok, exists_const, loadValidatedJob_eq_ok,
      transitionJob_eq_ok]
    exact ⟨rfl, j, ⟨hj, h.inv.found.address hj⟩, hs, hdue, _, ⟨by rw [hs]; rfl, rfl⟩, L', hsave,
      rfl⟩
  · rw [← records_abs, hsaved.abs_eq]
    exact State.records_put_self

theorem record_of_openChallenge
    (hfind : ∃ bump, P.tryFindProgramAddress (challengeSeedParts a) P.programId = some (k, bump))
    (hc : openChallenge P L a = some c) : L.recordAt P.programId k = some (.challenge c) := by
  obtain ⟨bump, hfind⟩ := hfind
  rw [openChallenge, hfind, Option.bind_some] at hc
  obtain ⟨r, hr, hrc⟩ := Option.bind_eq_some_iff.mp hc
  cases r with
  | challenge c' =>
    cases hrc
    exact hr
  | _ => cases hrc

theorem CreationCall.challenge_at {reasonHash : Pubkey} {t : Int64}
    (hj : L.recordAt P.programId a = some (.job j))
    (hjob : ctx.accounts[2]? = some (.new a false))
    (hcall : CreationCall P (ctx.at t) L (.challengeWork reasonHash) k)
    (hearly : ctx.now < j.autoSettleDeadline)
    (hclock : clockGuard P L ctx ctx.now (.challengeWork reasonHash)) :
    CreationCall P ctx L (.challengeWork reasonHash) k := by
  cases hcall with
  | @challengeWork config a' _ c j' bump _ _ accounts config_at job_at submitted _ find _ payer =>
    rw [Ctx.accounts_at] at accounts
    obtain rfl : a' = a := by simpa [accounts, AccountMeta.new] using hjob
    obtain rfl : j' = j := by simpa using job_at.symm.trans hj
    obtain ⟨deadline, hdeadline⟩ := hclock (.newReadonly config false) c (by rw [accounts]; rfl)
      config_at
    exact .challengeWork accounts config_at job_at submitted hearly find hdeadline payer

/-- A prepared call goes through once its checks on the clock pass. -/
theorem Prepared.succeeds (hP : P.CollisionFree (DerivedIn P L)) (h : Reached P L)
    (hj : L.recordAt P.programId a = some (.job j)) (hprepared : Prepared P L a j ctx ix)
    (hguard : deadlineGuard j (openChallenge P L a) ctx.now ix)
    (hclock : clockGuard P L ctx ctx.now ix) :
    ∃ L' ev, processInstruction P ctx L ix = .ok (L', ev) := by
  have hs := Sound.of_reached h
  cases hprepared with
  | fundJob call ready mint empty =>
    obtain ⟨L', ev, hok, -⟩ :=
      fundJob_succeeds hs { ready with in_time := hguard } mint call empty
    exact ⟨L', ev, hok⟩
  | expireUnfunded accounts created =>
    obtain ⟨L', ev, hok, -⟩ := expireUnfunded_succeeds hs hj accounts created hguard
    exact ⟨L', ev, hok⟩
  | acceptJob call ready room =>
    obtain ⟨L', ev, hok, -⟩ := acceptJob_succeeds hs (termed_of_reached h) (Keyed.of_reached h)
      { ready with in_time := hguard } call room
    exact ⟨L', ev, hok⟩
  | submitReceipt call ready =>
    obtain ⟨L', ev, hok, -⟩ :=
      submitReceipt_succeeds h hj { ready with in_time := ⟨hguard, hclock⟩ } call
    exact ⟨L', ev, hok⟩
  | challengeWork job call empty =>
    exact challengeWork_succeeds hP hs (call.challenge_at hj job hguard hclock) empty
  | resolveTimeoutRefund call waiting buyer thawed =>
    have hdue : RefundDue ctx.now j := by
      rw [deadlineGuard_resolveTimeoutRefund] at hguard
      rcases waiting with hstate | hstate
      · rw [if_pos hstate] at hguard
        exact .inl ⟨hstate, hguard⟩
      · rw [if_neg (by simp [hstate])] at hguard
        exact .inr ⟨hstate, hguard⟩
    obtain ⟨L', ev, hok, -⟩ := resolveTimeoutRefund_succeeds hP hs hj call hdue buyer thawed
    exact ⟨L', ev, hok⟩
  | expireUnaccepted call funded buyer thawed =>
    have hdue : refundDeadline ctx j true = .ok () := by
      simp only [refundDeadline, funded, ensure_eq_ok]
      exact hguard
    obtain ⟨L', ev, hok, -⟩ := refundInternal_succeeds_of_deadline hP hs hj call hdue buyer thawed
    exact ⟨L', ev, hok⟩
  | @resolveTimeoutSettle _ _ _ _ challenge call worked provider buyer thawed =>
    rw [deadlineGuard_resolveTimeoutSettle] at hguard
    have hdue : SettlementDue P L ctx.now j challenge := by
      rcases worked with hstate | hstate
      · rw [if_neg (by simp [hstate])] at hguard
        exact .inl ⟨hstate, hguard⟩
      · rw [if_pos hstate] at hguard
        obtain ⟨c, hc, hle⟩ := hguard
        exact .inr ⟨hstate, c, record_of_openChallenge call.challenge_find hc, hle⟩
    exact resolveTimeoutSettle_succeeds hs hj call hdue provider buyer thawed
  | slashBond config_at call challenged wallet buyer thawed vault_at =>
    obtain ⟨c, hc, hlt⟩ := hguard
    obtain ⟨L', ev, hok, -⟩ := slashBond_succeeds_of_call hs hj challenged config_at call
      (record_of_openChallenge call.challenge_find hc) hlt wallet buyer thawed vault_at
    exact ⟨L', ev, hok⟩

/-- In every reached ledger the deadline checks on a job divide the time. The clock decides about
each of their instructions by its check: a call goes through only while the check passes, and a
prepared one does then. A receipt is submitted while the challenge window is open. -/
theorem deadline_guards_partition (h : Reached P L)
    (hj : L.recordAt P.programId a = some (.job j)) :
    (∀ now, Partition j (openChallenge P L a) now) ∧
      (∀ ix i ctx data m, jobPosition ix = some i → Instruction.parse data = .ok ix →
        ctx.accounts[i]? = some m → m.key = a →
          Gated (fun now => process P (ctx.at now) L data) fun now =>
            deadlineGuard j (openChallenge P L a) now ix ∧ clockGuard P L ctx now ix) ∧
      (P.CollisionFree (DerivedIn P L) → ∀ ix ctx data, Prepared P L a j ctx ix →
        Instruction.parse data = .ok ix →
          ((∃ L' ev, process P ctx L data = .ok (L', ev)) ↔
            deadlineGuard j (openChallenge P L a) ctx.now ix ∧ clockGuard P L ctx ctx.now ix)) ∧
      ∀ ctx data r m L' ev, Instruction.parse data = .ok (.submitReceipt r) →
        ctx.accounts[2]? = some m → m.key = a → process P ctx L data = .ok (L', ev) →
          ctx.now < j.autoSettleDeadline := by
  have hsound := Sound.of_reached h
  have hgated : ∀ ix i ctx data m, jobPosition ix = some i → Instruction.parse data = .ok ix →
      ctx.accounts[i]? = some m → m.key = a →
        Gated (fun now => process P (ctx.at now) L data) fun now =>
          deadlineGuard j (openChallenge P L a) now ix ∧ clockGuard P L ctx now ix := by
    rintro ix i ctx data m hi hparse hm rfl
    exact gated_process hsound hj hi hparse hm
  refine ⟨hsound.partition hj, hgated, ?_, ?_⟩
  · intro hP ix ctx data hprepared hparse
    constructor
    · rintro ⟨L', ev, hok⟩
      obtain ⟨i, m, hi, hm, hkey⟩ := hprepared.position
      exact ((hgated ix i ctx data m hi hparse hm hkey ctx.now).mp ⟨(L', ev), hok⟩).1
    · rintro ⟨hguard, hclock⟩
      rw [process_of_parse hparse]
      exact hprepared.succeeds hP h hj hguard hclock
  · rintro ctx data r m L' ev hparse hm rfl hok
    rw [process_of_parse hparse] at hok
    have hle := le_workDeadline_of_submitReceipt hj hm hok
    have hlt := (ordered_of_reached h _ _ hj).work
    rw [Int64.lt_iff_toInt_lt] at hlt ⊢
    rw [Int64.le_iff_toInt_le] at hle
    omega

end Prepared

namespace Sample

theorem prepared_timeout : Prepared platform submittedLedger jobKey submittedJob timeout.1
    .resolveTimeoutSettle := by
  obtain ⟨-, -, hescrow, hprovider, hbuyer⟩ := views_submittedLedger
  exact .resolveTimeoutSettle timeout_call (.inl rfl)
    ⟨_, hprovider, ordinary_holding provider 380⟩ ⟨_, hbuyer, ordinary_holding buyer 700⟩
    ⟨_, hescrow, rfl⟩

theorem prepared_challenge (now : Int64) : Prepared platform submittedLedger jobKey submittedJob
    (challenge.1.at now) (.challengeWork (key 71)) :=
  .challengeWork (t := 60) rfl
    (challenge_call views_submittedLedger.2.1 job_at_submittedLedger views_challenge.2)
    (congrArg Account.lamports views_challenge.1)

theorem prepared_refund (now : Int64) : Prepared platform acceptedLedger jobKey acceptedJob
    (refund.1.at now) .resolveTimeoutRefund := by
  obtain ⟨-, -, hescrow, hbuyer⟩ := views_acceptedLedger
  exact .resolveTimeoutRefund { refund_call with } (.inr rfl)
    ⟨_, hbuyer, ordinary_holding buyer 700⟩ ⟨_, hescrow, rfl⟩

end Sample

/-- The accepted sample job is refunded after its work deadline and not on it. Once submitted, it
is settled on its automatic settlement, when it is no longer challenged. -/
theorem deadline_guards_partition_sample :
    (∃ L' ev, process Sample.platform (Sample.refund.1.at 301) Sample.acceptedLedger
        Sample.refund.2 = .ok (L', ev)) ∧
      (¬ ∃ L' ev, process Sample.platform (Sample.refund.1.at 300) Sample.acceptedLedger
        Sample.refund.2 = .ok (L', ev)) ∧
      Partition Sample.submittedJob
        (openChallenge Sample.platform Sample.submittedLedger Sample.jobKey) 400 ∧
      (∃ L' ev, process Sample.platform Sample.timeout.1 Sample.submittedLedger
        Sample.timeout.2 = .ok (L', ev)) ∧
      ¬ ∃ L' ev, process Sample.platform (Sample.challenge.1.at 400) Sample.submittedLedger
        Sample.challenge.2 = .ok (L', ev) := by
  obtain ⟨-, -, hrefunded, -⟩ :=
    deadline_guards_partition Sample.reached_acceptedLedger Sample.views_acceptedLedger.1
  obtain ⟨hpartition, -, hcarried, -⟩ :=
    deadline_guards_partition Sample.reached_submittedLedger Sample.job_at_submittedLedger
  have hrefunded := hrefunded Sample.collisionFree
  have hcarried := hcarried Sample.collisionFree
  refine ⟨?_, ?_, hpartition 400, ?_, ?_⟩
  · refine (hrefunded _ _ _ (Sample.prepared_refund 301) (by decide +kernel)).mpr ⟨?_, trivial⟩
    show (300 : Int64) < 301
    decide
  · rw [hrefunded _ _ _ (Sample.prepared_refund 300) (by decide +kernel)]
    rintro ⟨hlate, -⟩
    have hlt : (300 : Int64) < 300 := hlate
    exact absurd hlt (by decide)
  · refine (hcarried _ _ _ Sample.prepared_timeout (by decide +kernel)).mpr ⟨?_, trivial⟩
    show (400 : Int64) ≤ 400
    decide
  · rw [hcarried _ _ _ (Sample.prepared_challenge 400) Sample.parse_challenge]
    rintro ⟨hearly, -⟩
    have hlt : (400 : Int64) < 400 := hearly
    exact absurd hlt (by decide)

end AgentBond
