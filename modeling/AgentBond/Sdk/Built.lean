import AgentBond.Sdk.Layouts
import AgentBond.Sdk.Submit

/-! # Built plans

Whatever a builder is asked for, the plan it makes passes the check until it
expires: its last instruction is the one that was asked for with the accounts of
what was asked, it asks one party to sign, or nobody, and requires the
signatures it asks for.
-/

namespace AgentBond

open Foundation

/-- A plan of one instruction with the accounts of what is asked. -/
structure BuiltAlone (P : Platform) (programId : Pubkey) (ask : Ask) (signer : Pubkey)
    (plan : InstructionPlan) : Prop where
  single : ∃ action accounts data expiresAt,
    plan = .single programId action accounts data signer expiresAt ∧
      ask.instruction.encodeData = .ok data ∧ Lists P programId ask.layout accounts

/-- The plan of a receipt: the precompile's instruction and the program's. -/
structure BuiltReceipt (P : Platform) (programId : Pubkey) (ask : Ask)
    (plan : InstructionPlan) : Prop where
  pair : ∃ ed submit expiresAt,
    plan = .new "submit_receipt" programId [ed, submit] [] (some expiresAt) ∧
      ed.programId = ed25519ProgramId ∧ ed.accounts = [] ∧ submit.programId = programId ∧
      ask.instruction.encodeData = .ok submit.data ∧ Lists P programId ask.layout submit.accounts

/-- What the instructions of a plan say, which accounts they take, and who is asked to sign. -/
structure Carries (P : Platform) (programId : Pubkey) (ask : Ask) (ixs : List ChainInstruction) :
    Prop where
  last : ∃ pre ci, ixs = pre ++ [ci] ∧ ci.programId = programId ∧
    Instruction.parse ci.data = .ok ask.instruction ∧ Lists P programId ask.layout ci.accounts ∧
    ∀ c ∈ pre, c.programId = ed25519ProgramId
  signers : ∀ k, (∃ c ∈ ixs, ∃ m ∈ c.accounts, m.isSigner = true ∧ m.key = k) ↔
    ask.signer = some k

section Alone

variable {P : Platform} {programId : Pubkey} {ask : Ask} {signer : Pubkey} {plan : InstructionPlan}

theorem encodeData_of_emptyData {ix : Instruction} {kind : InstructionKind} {data : List UInt8}
    (hix : ix.encodeData = encodeEmpty kind) (h : emptyData kind = .ok data) :
    ix.encodeData = .ok data := by
  rw [hix]
  exact ofProtocol_eq_ok.mp h

@[simp] theorem lists_cons {s : Slot} {layout : List Slot} {m : AccountMeta}
    {accounts : List AccountMeta} :
    Lists P programId (s :: layout) (m :: accounts) ↔
      s.account P programId = some m ∧ Lists P programId layout accounts :=
  List.forall₂_cons

@[simp] theorem lists_nil : Lists P programId [] [] := List.Forall₂.nil

@[simp] theorem account_new {r : Role} {signs : Bool} {k : Pubkey} :
    (Slot.new r signs).account P programId = some (.new k signs) ↔
      r.address P programId = some k := by
  simp [Slot.account, Slot.new, AccountMeta.new]

@[simp] theorem account_newReadonly {r : Role} {signs : Bool} {k : Pubkey} :
    (Slot.newReadonly r signs).account P programId = some (.newReadonly k signs) ↔
      r.address P programId = some k := by
  simp [Slot.account, Slot.newReadonly, AccountMeta.newReadonly]

theorem alone_of_planRefund {action : String} {kind : InstructionKind}
    {buyer provider mint : Pubkey} {nonce : UInt64}
    (hix : ask.instruction.encodeData = encodeEmpty kind)
    (hlayout : ask.layout = (Ask.resolveTimeoutRefund signer buyer provider mint nonce).layout)
    (h : planRefund P programId action kind signer buyer provider mint nonce = .ok plan) :
    BuiltAlone P programId ask signer plan := by
  simp only [planRefund, jobPda, providerBondPda, jobEscrowAta, userSettlementAta, bind_eq_ok,
    findPda_eq_ok, associatedAddress_eq_ok, Except.ok.injEq] at h
  obtain ⟨job, hjob, bond, hbond, escrow, hescrow, token, htoken, data, hdata, rfl⟩ := h
  refine ⟨_, _, _, _, rfl, encodeData_of_emptyData hix hdata, ?_⟩
  rw [hlayout]
  simp [Ask.layout, hjob, hbond, hescrow, htoken]

/-- Every builder but the one for receipts makes a plan of one instruction. -/
theorem Ask.alone (hs : ask.signer = some signer) (h : ask.build P programId = .ok plan) :
    BuiltAlone P programId ask signer plan := by
  cases ask with
  | initializeConfig =>
    cases hs
    simp only [Ask.build, planInitializeConfig, configPda, bind_eq_ok, findPda_eq_ok,
      Except.ok.injEq] at h
    obtain ⟨_, -, _, -, config, hconfig, rfl⟩ := h
    refine ⟨_, _, _, _, rfl, rfl, ?_⟩
    simp [Ask.layout, hconfig]
  | setPaused =>
    cases hs
    simp only [Ask.build, planSetPaused, configPda, bind_eq_ok, findPda_eq_ok,
      Except.ok.injEq] at h
    obtain ⟨config, hconfig, rfl⟩ := h
    refine ⟨_, _, _, _, rfl, rfl, ?_⟩
    simp [Ask.layout, hconfig]
  | registerProvider =>
    cases hs
    simp only [Ask.build, planRegisterProvider, configPda, providerPda, bind_eq_ok, findPda_eq_ok,
      Except.ok.injEq] at h
    obtain ⟨config, hconfig, provider, hprovider, data, hdata, rfl⟩ := h
    refine ⟨_, _, _, _, rfl, encodeData_of_emptyData rfl hdata, ?_⟩
    simp [Ask.layout, hconfig, hprovider]
  | addExecutionKey =>
    cases hs
    simp only [Ask.build, planAddExecutionKey, providerPda, bind_eq_ok, findPda_eq_ok,
      Except.ok.injEq] at h
    obtain ⟨_, -, provider, hprovider, rfl⟩ := h
    refine ⟨_, _, _, _, rfl, rfl, ?_⟩
    simp [Ask.layout, hprovider]
  | revokeExecutionKey =>
    cases hs
    simp only [Ask.build, planRevokeExecutionKey, providerPda, bind_eq_ok, findPda_eq_ok,
      Except.ok.injEq] at h
    obtain ⟨provider, hprovider, rfl⟩ := h
    refine ⟨_, _, _, _, rfl, rfl, ?_⟩
    simp [Ask.layout, hprovider]
  | depositBond =>
    cases hs
    simp only [Ask.build, planDepositBond, configPda, providerPda, providerBondPda, bondVaultAta,
      userSettlementAta, bind_eq_ok, findPda_eq_ok, associatedAddress_eq_ok, Except.ok.injEq] at h
    obtain ⟨_, -, config, hconfig, provider, hprovider, bond, hbond, vault, hvault, token, htoken,
      rfl⟩ := h
    refine ⟨_, _, _, _, rfl, rfl, ?_⟩
    simp [Ask.layout, hconfig, hprovider, hbond, hvault, htoken]
  | withdrawBond =>
    cases hs
    simp only [Ask.build, planWithdrawBond, providerBondPda, bondVaultAta, userSettlementAta,
      bind_eq_ok, findPda_eq_ok, associatedAddress_eq_ok, Except.ok.injEq] at h
    obtain ⟨_, -, bond, hbond, vault, hvault, token, htoken, rfl⟩ := h
    refine ⟨_, _, _, _, rfl, rfl, ?_⟩
    simp [Ask.layout, hbond, hvault, htoken]
  | createJob =>
    cases hs
    simp only [Ask.build, planCreateJob, configPda, providerPda, jobPda, bind_eq_ok, findPda_eq_ok,
      Except.ok.injEq] at h
    obtain ⟨_, -, _, -, _, -, config, hconfig, provider, hprovider, job, hjob, rfl⟩ := h
    refine ⟨_, _, _, _, rfl, rfl, ?_⟩
    simp [Ask.layout, hconfig, hprovider, hjob]
  | fundJob =>
    cases hs
    simp only [Ask.build, planFundJob, configPda, jobPda, userSettlementAta, jobEscrowAta,
      bind_eq_ok, findPda_eq_ok, associatedAddress_eq_ok, Except.ok.injEq] at h
    obtain ⟨config, hconfig, job, hjob, token, htoken, escrow, hescrow, data, hdata, rfl⟩ := h
    refine ⟨_, _, _, _, rfl, encodeData_of_emptyData rfl hdata, ?_⟩
    simp [Ask.layout, hconfig, hjob, htoken, hescrow]
  | acceptJob =>
    cases hs
    simp only [Ask.build, planAcceptJob, configPda, providerPda, providerBondPda, jobPda,
      bind_eq_ok, findPda_eq_ok, Except.ok.injEq] at h
    obtain ⟨config, hconfig, provider, hprovider, bond, hbond, job, hjob, data, hdata, rfl⟩ := h
    refine ⟨_, _, _, _, rfl, encodeData_of_emptyData rfl hdata, ?_⟩
    simp [Ask.layout, hconfig, hprovider, hbond, hjob]
  | acceptWork =>
    cases hs
    simp only [Ask.build, planAcceptWork, jobPda, providerBondPda, jobEscrowAta, userSettlementAta,
      bind_eq_ok, findPda_eq_ok, associatedAddress_eq_ok, Except.ok.injEq] at h
    obtain ⟨job, hjob, bond, hbond, escrow, hescrow, providerToken, hprovider, buyerToken, hbuyer,
      data, hdata, rfl⟩ := h
    refine ⟨_, _, _, _, rfl, encodeData_of_emptyData rfl hdata, ?_⟩
    simp [Ask.layout, hjob, hbond, hescrow, hprovider, hbuyer]
  | challengeWork =>
    cases hs
    simp only [Ask.build, planChallengeWork, configPda, jobPda, challengePda, bind_eq_ok,
      findPda_eq_ok, Except.ok.injEq] at h
    obtain ⟨config, hconfig, job, hjob, challenge, hchallenge, rfl⟩ := h
    refine ⟨_, _, _, _, rfl, rfl, ?_⟩
    simp [Ask.layout, hconfig, hjob, hchallenge]
  | resolveTimeoutSettle payer buyer provider mint nonce withChallenge =>
    cases hs
    simp only [Ask.build, planResolveTimeoutSettle, jobPda, providerBondPda, jobEscrowAta,
      userSettlementAta, bind_eq_ok, findPda_eq_ok, associatedAddress_eq_ok, Except.ok.injEq] at h
    obtain ⟨job, hjob, bond, hbond, escrow, hescrow, providerToken, hprovider, buyerToken, hbuyer,
      accounts, haccounts, data, hdata, rfl⟩ := h
    refine ⟨_, _, _, _, rfl, encodeData_of_emptyData rfl hdata, ?_⟩
    cases withChallenge with
    | false =>
      cases haccounts
      simp [Ask.layout, hjob, hbond, hescrow, hprovider, hbuyer]
    | true =>
      simp only [challengeAccounts, if_true, challengePda, bind_eq_ok, findPda_eq_ok,
        Except.ok.injEq] at haccounts
      obtain ⟨challenge, hchallenge, rfl⟩ := haccounts
      simp [Ask.layout, hjob, hbond, hescrow, hprovider, hbuyer, hchallenge]
  | resolveTimeoutRefund | expireUnaccepted =>
    cases hs
    exact alone_of_planRefund rfl rfl h
  | expireUnfunded =>
    cases hs
    simp only [Ask.build, planExpireUnfunded, jobPda, bind_eq_ok, findPda_eq_ok,
      Except.ok.injEq] at h
    obtain ⟨job, hjob, data, hdata, rfl⟩ := h
    refine ⟨_, _, _, _, rfl, encodeData_of_emptyData rfl hdata, ?_⟩
    simp [Ask.layout, hjob]
  | slashBond =>
    cases hs
    simp only [Ask.build, planSlashBond, configPda, jobPda, providerBondPda, bondVaultAta,
      jobEscrowAta, userSettlementAta, challengePda, bind_eq_ok, findPda_eq_ok,
      associatedAddress_eq_ok, Except.ok.injEq] at h
    obtain ⟨config, hconfig, job, hjob, bond, hbond, vault, hvault, escrow, hescrow, token, htoken,
      challenge, hchallenge, data, hdata, rfl⟩ := h
    refine ⟨_, _, _, _, rfl, encodeData_of_emptyData rfl hdata, ?_⟩
    simp [Ask.layout, hconfig, hjob, hbond, hvault, hescrow, htoken, hchallenge]
  | closeJob buyer provider mint nonce includeEscrow =>
    cases hs
    cases includeEscrow with
    | false =>
      simp only [Ask.build, planCloseJob, Bool.false_eq_true, if_false, jobPda, bind_eq_ok,
        findPda_eq_ok, Except.ok.injEq, exists_eq_left'] at h
      obtain ⟨job, hjob, data, hdata, rfl⟩ := h
      exact ⟨_, _, _, _, rfl, encodeData_of_emptyData rfl hdata, by simp [Ask.layout, hjob]⟩
    | true =>
      simp only [Ask.build, planCloseJob, if_true, jobPda, jobEscrowAta, bind_eq_ok, findPda_eq_ok,
        associatedAddress_eq_ok, Except.ok.injEq, exists_eq_left'] at h
      obtain ⟨job, hjob, escrow, hescrow, data, hdata, rfl⟩ := h
      exact ⟨_, _, _, _, rfl, encodeData_of_emptyData rfl hdata, by
        simp [Ask.layout, hjob, hescrow]⟩
  | submitReceipt => cases hs

end Alone

section Accepted

variable {P : Platform} {programId signer : Pubkey} {ask : Ask} {plan : InstructionPlan}

theorem Ask.pair (hs : ask.signer = none) (h : ask.build P programId = .ok plan) :
    BuiltReceipt P programId ask plan := by
  cases ask with
  | submitReceipt job provider receipt key signature now =>
    simp only [Ask.build, buildSubmitReceiptPlanAt, buildEd25519VerifyInstruction, configPda,
      providerPda, bind_eq_ok, findPda_eq_ok, ensure_eq_ok, exists_const, ofProtocol_eq_ok,
      Except.ok.injEq] at h
    obtain ⟨-, -, -, -, -, -, -, _, -, -, ed, ⟨-, -, rfl⟩, config, hconfig, provider, hprovider,
      data, hdata, rfl⟩ := h
    exact ⟨_, _, _, rfl, rfl, rfl, rfl, hdata, by simp [Ask.layout, hconfig, hprovider]⟩
  | _ => cases hs

theorem parse_of_encodeData {ix : Instruction} {data : List UInt8} (h : ix.encodeData = .ok data) :
    Instruction.parse data = .ok ix := by
  rw [Instruction.encodeData_eq] at h
  exact Instruction.parse_of_encode h

/-- A plan with permitted instructions that the required signers sign passes until it expires. -/
theorem validate_iff_unexpired {ixs : List ChainInstruction}
    (hprogram : parsePubkey plan.programId = .ok programId)
    (hixs : plan.toSolanaInstructions = .ok ixs) (hne : ixs ≠ [])
    (hpermitted : Successive (Permitted programId) ixs)
    (hsigners : ∀ required ∈ plan.requiredSigners,
      ∃ c ∈ ixs, ∃ m ∈ c.accounts, m.isSigner = true ∧ keyToText m.key = required) (now : Int64) :
    validatePlanInstructions plan programId now = .ok () ↔
      ∀ expires, plan.expiresAt = some expires → now ≤ expires := by
  rw [validatePlanInstructions_eq_ok]
  constructor
  · rintro ⟨_, hchecked⟩
    exact hchecked.unexpired
  · intro hunexpired
    exact ⟨ixs, hprogram, hunexpired, hixs, hne, hpermitted, hsigners⟩

theorem BuiltAlone.carries (h : BuiltAlone P programId ask signer plan) :
    ∃ ixs, plan.toSolanaInstructions = .ok ixs ∧ Carries P programId ask ixs := by
  obtain ⟨action, accounts, data, expiresAt, rfl, hdata, hlists⟩ := h.single
  refine ⟨_, toSolanaInstructions_single,
    ⟨[], _, rfl, rfl, parse_of_encodeData hdata, hlists, ?_⟩, fun k => ?_⟩
  · intro c hc
    cases hc
  · simpa only [List.mem_singleton, exists_eq_left] using hlists.signer_iff k

theorem BuiltAlone.accepted (hs : ask.signer = some signer)
    (h : BuiltAlone P programId ask signer plan) :
    plan.requiredSigners = [keyToText signer] ∧ ∀ now,
      validatePlanInstructions plan programId now = .ok () ↔
        ∀ expires, plan.expiresAt = some expires → now ≤ expires := by
  obtain ⟨action, accounts, data, expiresAt, rfl, -, hlists⟩ := h.single
  refine ⟨rfl, validate_iff_unexpired (parsePubkey_keyToText programId) toSolanaInstructions_single
    (fun h => by cases h) ?_ ?_⟩
  · rw [successive_cons]
    exact ⟨.inl rfl, fun i x hx => by cases hx⟩
  · intro required hrequired
    rw [List.mem_singleton.mp hrequired]
    obtain ⟨m, hm, hsigner, rfl⟩ := (hlists.signer_iff signer).mpr hs
    exact ⟨_, List.mem_singleton_self _, m, hm, hsigner, rfl⟩

theorem BuiltReceipt.carries (hs : ask.signer = none) (h : BuiltReceipt P programId ask plan) :
    ∃ ixs, plan.toSolanaInstructions = .ok ixs ∧ Carries P programId ask ixs := by
  obtain ⟨ed, submit, expiresAt, rfl, hed, hempty, hsubmit, hdata, hlists⟩ := h.pair
  refine ⟨_, InstructionPlan.toSolanaInstructions_new .., ⟨[ed], submit, rfl, hsubmit,
    parse_of_encodeData hdata, hlists, ?_⟩, fun k => ?_⟩
  · intro c hc
    rw [List.mem_singleton.mp hc, hed]
  · rw [hs]
    refine iff_of_false ?_ (fun h => by cases h)
    rintro ⟨c, hc, hsigned⟩
    simp only [List.mem_cons, List.not_mem_nil, or_false] at hc
    rcases hc with rfl | rfl
    · obtain ⟨m, hm, -⟩ := hsigned
      rw [hempty] at hm
      cases hm
    · cases hs.symm.trans ((hlists.signer_iff k).mp hsigned)

theorem BuiltReceipt.accepted (h : BuiltReceipt P programId ask plan) :
    plan.requiredSigners = [] ∧ ∀ now, validatePlanInstructions plan programId now = .ok () ↔
      ∀ expires, plan.expiresAt = some expires → now ≤ expires := by
  obtain ⟨ed, submit, expiresAt, rfl, hed, -, hsubmit, -⟩ := h.pair
  refine ⟨rfl, validate_iff_unexpired (parsePubkey_keyToText programId)
    (InstructionPlan.toSolanaInstructions_new ..) (fun h => by cases h) ?_ ?_⟩
  · rw [successive_cons, successive_cons]
    exact ⟨.inr ⟨hed, _, rfl, hsubmit⟩, .inl hsubmit, fun i x hx => by cases hx⟩
  · intro required hrequired
    cases hrequired

theorem Ask.carried (h : ask.build P programId = .ok plan) :
    ∃ ixs, plan.toSolanaInstructions = .ok ixs ∧ Carries P programId ask ixs := by
  cases hs : ask.signer with
  | some signer => exact (Ask.alone hs h).carries
  | none => exact (Ask.pair hs h).carries hs

theorem Ask.passes (h : ask.build P programId = .ok plan) :
    plan.requiredSigners = ask.signer.toList.map keyToText ∧ ∀ now,
      validatePlanInstructions plan programId now = .ok () ↔
        ∀ expires, plan.expiresAt = some expires → now ≤ expires := by
  cases hs : ask.signer with
  | some signer => exact (Ask.alone hs h).accepted hs
  | none => exact (Ask.pair hs h).accepted

end Accepted

namespace Sample

end Sample

end AgentBond
