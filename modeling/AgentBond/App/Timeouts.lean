import AgentBond.App.Services
import AgentBond.Chain.Prepared

/-! # Planned timeouts go through

What the planner plans for a job the program carries out, then or later, and the
job is over. Once its last deadline has passed there is such a plan for every
live job whose token accounts are in order: no job is stuck.
-/

namespace AgentBond

open Foundation Protocol

variable {P : Platform} {L L' : Ledger} {a : Pubkey} {j : JobAccount} {ctx : Ctx}
  {now t : Int64} {cfg : AppConfig} {req : TimeoutRequest} {plan : InstructionPlan}
  {ix : Instruction}
  {ci : ChainInstruction} {payer : Pubkey}

/-- The state a timeout leads to. -/
def JobState.timedOut : JobState → Option JobState
  | .created => some .expired
  | .funded | .accepted => some .refunded
  | .submitted | .challenged => some .settled
  | _ => none

theorem JobState.isTerminal_of_timedOut {s s' : JobState} (h : s.timedOut = some s') :
    s'.isTerminal = true := by
  cases s <;> cases h <;> rfl

/-- The token accounts that a timeout of the job pays from and to are in order. -/
structure InOrder (P : Platform) (L : Ledger) (a : Pubkey) (j : JobAccount) : Prop where
  escrow : j.state.holdsEscrow = true → ∀ k, P.ata a j.mint = some k → ThawedAt L k
  buyer : j.state.holdsEscrow = true → ∀ k, P.ata j.buyer j.mint = some k →
    OrdinaryAt L k j.mint j.buyer
  provider : j.state = .submitted ∨ j.state = .challenged → ∀ k,
    P.ata j.provider j.mint = some k → OrdinaryAt L k j.mint j.provider

theorem TimeoutDue.mono (h : TimeoutDue P L a j now ix) (ht : now ≤ t) :
    TimeoutDue P L a j t ix := by
  cases ix with
  | expireUnfunded => exact ⟨h.1, Int64.le_trans h.2 ht⟩
  | resolveTimeoutRefund =>
    rcases h with ⟨hs, hdue⟩ | ⟨hs, hdue⟩
    · exact .inl ⟨hs, Int64.le_trans hdue ht⟩
    · exact .inr ⟨hs, Int64.lt_of_lt_of_le hdue ht⟩
  | resolveTimeoutSettle =>
    rcases h with ⟨hs, hdue⟩ | ⟨hs, c, hc, hopen, hdue⟩
    · exact .inl ⟨hs, Int64.le_trans hdue ht⟩
    · exact .inr ⟨hs, c, hc, hopen, Int64.le_trans hdue ht⟩
  | _ => cases h

theorem planned_expiry_succeeds (h : Sound P L) (hj : L.recordAt P.programId a = some (.job j))
    (hs : j.state = .created) (hdue : j.fundDeadline ≤ ctx.now)
    (hplan : planExpireUnfunded P P.programId payer j.buyer j.provider j.jobNonce = .ok plan)
    (hci : plan.toSolanaInstructions = .ok [ci]) (hctx : ctx.accounts = ci.accounts) :
    ∃ L' ev, process P ctx L ci.data = .ok (L', ev) ∧
      L'.recordAt P.programId a = some (.job { j with state := .expired }) := by
  have hfind := h.job_found hj
  simp only [planExpireUnfunded, jobPda, bind_eq_ok, findPda_eq_ok, Except.ok.injEq, hfind,
    Option.some.injEq, Prod.mk.injEq] at hplan
  obtain ⟨x, ⟨rfl, -⟩, data, hdata, rfl⟩ := hplan
  cases toSolanaInstructions_single.symm.trans hci
  have hprocess : process P ctx L data = expireUnfunded P ctx L :=
    process_of_parse (parse_of_emptyData (rfl : Instruction.expireUnfunded.encodeData = _) hdata)
  rw [hprocess]
  exact expireUnfunded_succeeds h hj hctx hs hdue

theorem planned_refund_succeeds (hP : P.CollisionFree (DerivedIn P L)) (h : Sound P L)
    (hj : L.recordAt P.programId a = some (.job j)) (hdue : RefundDue ctx.now j)
    (hready : InOrder P L a j)
    (hplan : planResolveTimeoutRefund P P.programId payer j.buyer j.provider j.mint j.jobNonce =
      .ok plan)
    (hci : plan.toSolanaInstructions = .ok [ci]) (hctx : ctx.accounts = ci.accounts) :
    ∃ L' ev, process P ctx L ci.data = .ok (L', ev) ∧
      L'.recordAt P.programId a = some (.job (released j .refunded)) := by
  have hfind := h.job_found hj
  simp only [planResolveTimeoutRefund, planRefund, jobPda, providerBondPda, jobEscrowAta,
    userSettlementAta, bind_eq_ok, findPda_eq_ok, associatedAddress_eq_ok, Except.ok.injEq, hfind,
    Option.some.injEq, Prod.mk.injEq] at hplan
  obtain ⟨x, ⟨rfl, -⟩, bond, hbond, escrow, hescrow, buyerToken, hbuyer, data, hdata, rfl⟩ := hplan
  cases toSolanaInstructions_single.symm.trans hci
  have hheld := holdsEscrow_of_refundDue hdue
  have htoken : j.tokenProgram = tokenProgramId := (h.inv.valid _ _ hj).2.2.2.2.1
  have hcall : RefundCall P ctx x.address j bond.address escrow buyerToken :=
    ⟨⟨_, by rw [hctx, htoken]⟩, ⟨bond.bump, hbond⟩, hescrow, hbuyer⟩
  obtain ⟨L', ev, hok, hj'⟩ := resolveTimeoutRefund_succeeds hP h hj hcall hdue
    (hready.buyer hheld _ hbuyer) (hready.escrow hheld _ hescrow)
  have hprocess : process P ctx L data = resolveTimeoutRefund P ctx L :=
    process_of_parse
      (parse_of_emptyData (rfl : Instruction.resolveTimeoutRefund.encodeData = _) hdata)
  exact ⟨L', ev, hprocess.trans hok, hj'⟩

theorem planned_settlement_succeeds (h : Sound P L) (hj : L.recordAt P.programId a = some (.job j))
    (hdue : TimeoutDue P L a j ctx.now .resolveTimeoutSettle) (hready : InOrder P L a j)
    (hplan : planResolveTimeoutSettle P P.programId payer j.buyer j.provider j.mint j.jobNonce
      (decide (j.state = .challenged)) = .ok plan)
    (hci : plan.toSolanaInstructions = .ok [ci]) (hctx : ctx.accounts = ci.accounts) :
    ∃ L' ev, process P ctx L ci.data = .ok (L', ev) ∧
      L'.recordAt P.programId a = some (.job (released j .settled)) := by
  have hstate : j.state = .submitted ∨ j.state = .challenged := hdue.imp And.left And.left
  have hheld : j.state.holdsEscrow = true := by rcases hstate with hs | hs <;> rw [hs] <;> rfl
  have hlocks : j.state.locksBond = true := by rcases hstate with hs | hs <;> rw [hs] <;> rfl
  have hfind := h.job_found hj
  simp only [planResolveTimeoutSettle, jobPda, providerBondPda, jobEscrowAta, userSettlementAta,
    bind_eq_ok, findPda_eq_ok, associatedAddress_eq_ok, Except.ok.injEq, hfind, Option.some.injEq,
    Prod.mk.injEq] at hplan
  obtain ⟨x, ⟨rfl, -⟩, bond, hbond, escrow, hescrow, providerToken, hprovider, buyerToken, hbuyer,
    challenge, hchallenge, data, hdata, rfl⟩ := hplan
  cases toSolanaInstructions_single.symm.trans hci
  obtain ⟨b, hb, hof⟩ := h.bond_of_find hj hlocks ⟨bond.bump, hbond⟩
  have hacc : SettleAccounts P L j b (.new x.address false) (.new bond.address false)
      (.new escrow false) (.new providerToken false) (.new buyerToken false)
      (.newReadonly tokenProgramId false) :=
    ⟨hj, hb, hof, hescrow, hprovider, hbuyer, hready.escrow hheld _ hescrow,
      hready.provider hstate _ hprovider, hready.buyer hheld _ hbuyer, rfl⟩
  have hreached : DeadlineReached P L ctx.now x.address j (.new j.buyer false) challenge[0]? := by
    rcases hdue with ⟨hs, hdue⟩ | ⟨hs, c, hc, -, hdue⟩
    · exact .inl ⟨hs, hdue⟩
    · obtain ⟨k, c', hk, hck⟩ := h.inv.linked.challenged hj hs
      have hopen := openChallenge_of_record h hk
      have hfound := h.challenge_found hk
      rw [hck] at hopen hfound
      cases hopen.symm.trans hc
      simp only [challengeAccounts, hs, decide_true, if_true, challengePda, bind_eq_ok,
        findPda_eq_ok, Except.ok.injEq, hfound, Option.some.injEq, Prod.mk.injEq] at hchallenge
      obtain ⟨y, ⟨rfl, -⟩, rfl⟩ := hchallenge
      exact .inr ⟨hs, _, c, rfl, hk, hck, hdue, rfl, rfl⟩
  obtain ⟨L₁, hdeadline⟩ := settleDeadline_succeeds (.new x.address false) h hj rfl hreached
  obtain ⟨L', ev, hok, hj'⟩ := resolveTimeoutSettle_succeeds_of_deadline h hctx hacc
    ⟨rfl, rfl, rfl, rfl, fun _ _ _ => rfl, rfl⟩ rfl hdeadline
  have hprocess : process P ctx L data = resolveTimeoutSettle P ctx L :=
    process_of_parse
      (parse_of_emptyData (rfl : Instruction.resolveTimeoutSettle.encodeData = _) hdata)
  exact ⟨L', ev, hprocess.trans hok, hj'⟩

/-- What the planner plans for a job in order goes through, then or later, and ends the job. -/
theorem planTimeout_succeeds (hP : P.CollisionFree (DerivedIn P L)) (h : Sound P L)
    (hj : L.recordAt P.programId a = some (.job j)) (hready : InOrder P L a j)
    (hplan : planTimeout P (.of L now) P.programId payer j.buyer j.provider j.mint a j.jobNonce j
      now = .ok plan)
    (hci : plan.toSolanaInstructions = .ok [ci]) (hctx : ctx.accounts = ci.accounts)
    (hnow : now ≤ ctx.now) :
    ∃ L' ev j', process P ctx L ci.data = .ok (L', ev) ∧
      L'.recordAt P.programId a = some (.job j') ∧ j.state.timedOut = some j'.state := by
  obtain ⟨ix, ci', hdue, -, -⟩ := due_of_planTimeout h hj hplan
  have hdue := hdue.mono hnow
  have hinstruction := hdue.instruction
  rcases builder_of_planTimeout hplan with ⟨hstate, hbuilt⟩ | ⟨hstate, hbuilt⟩ | ⟨hstate, hbuilt⟩
  · rw [hstate] at hinstruction
    cases hinstruction
    obtain ⟨L', ev, hok, hj'⟩ := planned_expiry_succeeds h hj hstate hdue.2 hbuilt hci hctx
    exact ⟨L', ev, _, hok, hj', by rw [hstate]; rfl⟩
  · obtain rfl : ix = .resolveTimeoutRefund := by
      rcases hstate with hstate | hstate <;> rw [hstate] at hinstruction <;> cases hinstruction <;>
        rfl
    obtain ⟨L', ev, hok, hj'⟩ := planned_refund_succeeds hP h hj hdue hready hbuilt hci hctx
    exact ⟨L', ev, _, hok, hj', by rcases hstate with hstate | hstate <;> rw [hstate] <;> rfl⟩
  · obtain rfl : ix = .resolveTimeoutSettle := by
      rcases hstate with hstate | hstate <;> rw [hstate] at hinstruction <;> cases hinstruction <;>
        rfl
    obtain ⟨L', ev, hok, hj'⟩ := planned_settlement_succeeds h hj hdue hready hbuilt hci hctx
    exact ⟨L', ev, _, hok, hj', by rcases hstate with hstate | hstate <;> rw [hstate] <;> rfl⟩

/-- A plan for a timeout of a job in order goes through, at the time it was made for or later, and
the job is over. -/
theorem planned_timeout_succeeds (hP : P.CollisionFree (DerivedIn P L)) (h : Reached P L)
    (hj : L.recordAt P.programId a = some (.job j)) (hasks : req.Asks P cfg j)
    (hready : InOrder P L a j) (hplan : buildTimeoutPlan P cfg (.of L now) req = .ok plan)
    (hci : plan.toSolanaInstructions = .ok [ci]) (hctx : ctx.accounts = ci.accounts)
    (hnow : now ≤ ctx.now) :
    ∃ L' ev j', process P ctx L ci.data = .ok (L', ev) ∧
      L'.recordAt P.programId a = some (.job j') ∧ j.state.timedOut = some j'.state := by
  have hs := Sound.of_reached h
  obtain ⟨payer, -, -, hplan⟩ := (buildTimeoutPlan_eq_ok hs hj hasks).mp hplan
  exact planTimeout_succeeds hP hs hj hready hplan hci hctx hnow

theorem signers_of_planTimeout {reader : ChainReader} {m : AccountMeta}
    (h : planTimeout P reader P.programId payer j.buyer j.provider j.mint a j.jobNonce j now =
      .ok plan) (hci : plan.toSolanaInstructions = .ok [ci]) (hm : m ∈ ci.accounts)
    (hsigner : m.isSigner = true) : m.key = payer := by
  obtain ⟨ask, hask, hbuilt⟩ := asks_of_planTimeout h
  obtain ⟨ixs, hixs, hcarries⟩ := Ask.carried hbuilt
  cases hixs.symm.trans hci
  have hsigned := (hcarries.signers m.key).mp ⟨ci, List.mem_singleton_self _, m, hm, hsigner, rfl⟩
  rw [PlanRequest.signer_of_timeoutAsk hask] at hsigned
  exact (Option.some.inj hsigned).symm

/-- From its last deadline on, a timeout of a live job is due. -/
theorem due_of_live (h : Sound P L) (ho : j.Ordered) (hj : L.recordAt P.programId a = some (.job j))
    (hlive : j.state.isTerminal = false) :
    ∃ t ix, ∀ now, t ≤ now → TimeoutDue P L a j now ix := by
  cases hs : j.state with
  | created => exact ⟨j.fundDeadline, .expireUnfunded, fun now hnow => ⟨hs, hnow⟩⟩
  | funded => exact ⟨j.acceptDeadline, .resolveTimeoutRefund, fun now hnow => .inl ⟨hs, hnow⟩⟩
  | accepted =>
    exact ⟨j.autoSettleDeadline, .resolveTimeoutRefund, fun now hnow =>
      .inr ⟨hs, Int64.lt_of_lt_of_le ho.work hnow⟩⟩
  | submitted =>
    exact ⟨j.autoSettleDeadline, .resolveTimeoutSettle, fun now hnow => .inl ⟨hs, hnow⟩⟩
  | challenged =>
    obtain ⟨k, c, hk, rfl⟩ := h.inv.linked.challenged hj hs
    exact ⟨c.deadline, .resolveTimeoutSettle, fun now hnow =>
      .inr ⟨hs, c, openChallenge_of_record h hk, h.inv.valid _ _ hk, hnow⟩⟩
  | _ =>
    rw [hs] at hlive
    cases hlive

/-- No job is stuck: from some time on the planner has a plan for every live job with its accounts
in order, which anybody can sign, and which ends the job when it is carried out. -/
theorem jobs_never_stuck (hP : P.CollisionFree (DerivedIn P L)) (h : Reached P L)
    (hj : L.recordAt P.programId a = some (.job j)) (hlive : j.state.isTerminal = false)
    (hasks : req.Asks P cfg j) (hd : Derivable P a j) (hready : InOrder P L a j) :
    ∃ t, ∀ now, t ≤ now → ∃ plan ci, buildTimeoutPlan P cfg (.of L now) req = .ok plan ∧
      plan.toSolanaInstructions = .ok [ci] ∧
      (∀ m ∈ ci.accounts, m.isSigner = true → Base58.decodeKey req.payer = some m.key) ∧
      ∀ ctx : Ctx, ctx.accounts = ci.accounts → now ≤ ctx.now → ∃ L' ev j',
        process P ctx L ci.data = .ok (L', ev) ∧
          L'.recordAt P.programId a = some (.job j') ∧ j'.state.isTerminal = true := by
  have hs := Sound.of_reached h
  obtain ⟨payer, hpayer⟩ := hasks.payer
  obtain ⟨t, ix, hdue⟩ := due_of_live hs (ordered_of_reached h a j hj) hj hlive
  refine ⟨t, fun now hnow => ?_⟩
  obtain ⟨-, plan, hplanned⟩ := planTimeout_of_due payer hs hj hd (hdue now hnow)
  have hplan : buildTimeoutPlan P cfg (.of L now) req = .ok plan :=
    (buildTimeoutPlan_eq_ok hs hj hasks).mpr ⟨payer, hpayer, hlive, hplanned⟩
  obtain ⟨-, ci, -, hci, -⟩ := due_of_planTimeout hs hj hplanned
  refine ⟨plan, ci, hplan, hci, fun m hm hsigner => ?_, fun ctx hctx hlater => ?_⟩
  · rw [signers_of_planTimeout hplanned hci hm hsigner, hpayer]
  · obtain ⟨L', ev, j', hok, hj', hover⟩ :=
      planTimeout_succeeds hP hs hj hready hplanned hci hctx hlater
    exact ⟨L', ev, j', hok, hj', JobState.isTerminal_of_timedOut hover⟩

section Agreement

/-- The instruction passes its state and deadline checks on the job and its challenge: some call at
the time does, in the processor itself. An expiry checks nothing else. -/
def PassesChecks (P : Platform) (L : Ledger) (a : Pubkey) (j : JobAccount) (now : Int64) :
    Instruction → Prop
  | .expireUnfunded => ∃ (ctx : Ctx) (m : AccountMeta) (L' : Ledger) (ev : ProtocolEvent),
      ctx.now = now ∧ ctx.accounts[1]? = some m ∧ m.key = a ∧
        expireUnfunded P ctx L = .ok (L', ev)
  | .resolveTimeoutRefund => ∃ ctx : Ctx, ctx.now = now ∧ refundDeadline ctx j false = .ok ()
  | .resolveTimeoutSettle => ∃ (ctx : Ctx) (m buyer : AccountMeta) (challenge : Option AccountMeta)
      (L' : Ledger), ctx.now = now ∧ m.key = a ∧
        settleDeadline P ctx L j m buyer challenge = .ok L'
  | _ => False

theorem passesChecks_expireUnfunded (h : Sound P L)
    (hj : L.recordAt P.programId a = some (.job j)) :
    PassesChecks P L a j now .expireUnfunded ↔ TimeoutDue P L a j now .expireUnfunded := by
  constructor
  · rintro ⟨ctx, m, L', ev, rfl, hm, rfl, hok⟩
    exact ⟨state_of_expireUnfunded ctx hj hm hok, (((gated_expireUnfunded hj hm) ctx.now).mp
      ⟨_, hok⟩).1.1⟩
  · rintro ⟨hs, hdue⟩
    let ctx : Ctx :=
      { accounts := [.newReadonly a false, .new a false], now, instructions := [],
        currentIndex := 0 }
    have hexpired : ∃ L' ev, expireUnfunded P ctx L = .ok (L', ev) ∧
        L'.recordAt P.programId a = some (.job { j with state := .expired }) :=
      expireUnfunded_succeeds h hj rfl hs hdue
    obtain ⟨L', ev, hok, -⟩ := hexpired
    exact ⟨ctx, .new a false, L', ev, rfl, rfl, rfl, hok⟩

theorem passesChecks_resolveTimeoutRefund : PassesChecks P L a j now .resolveTimeoutRefund ↔
    TimeoutDue P L a j now .resolveTimeoutRefund := by
  constructor
  · rintro ⟨ctx, rfl, hok⟩
    exact (refundDeadline_eq_ok hok).imp_right fun ⟨hs, hdue, _⟩ => ⟨hs, hdue⟩
  · intro hdue
    let ctx : Ctx := { accounts := [], now, instructions := [], currentIndex := 0 }
    exact ⟨ctx, rfl, refundDeadline_succeeds hdue⟩

theorem passesChecks_resolveTimeoutSettle (h : Sound P L)
    (hj : L.recordAt P.programId a = some (.job j)) :
    PassesChecks P L a j now .resolveTimeoutSettle ↔
      TimeoutDue P L a j now .resolveTimeoutSettle := by
  constructor
  · rintro ⟨ctx, m, buyer, challenge, L', rfl, rfl, hok⟩
    rcases (abs_of_settleDeadline (P := P) hok).1 with ⟨hs, hdue, -⟩ | ⟨hs, k, c, hk, hck, hdue, -⟩
    · exact .inl ⟨hs, hdue⟩
    · exact .inr ⟨hs, c, hck ▸ openChallenge_of_record h hk, h.inv.valid _ _ hk, hdue⟩
  · intro hdue
    let ctx : Ctx := { accounts := [], now, instructions := [], currentIndex := 0 }
    rcases hdue with ⟨hs, hdue⟩ | ⟨hs, c, hc, -, hdue⟩
    · have hsettled : ∃ L', settleDeadline P ctx L j (.new a false) (.new j.buyer false) none =
          .ok L' := settleDeadline_succeeds _ h hj rfl (.inl ⟨hs, hdue⟩)
      obtain ⟨L', hok⟩ := hsettled
      exact ⟨ctx, _, _, _, L', rfl, rfl, hok⟩
    · obtain ⟨k, c', hk, hck⟩ := h.inv.linked.challenged hj hs
      obtain rfl : c' = c :=
        Option.some.inj ((hck ▸ openChallenge_of_record h hk).symm.trans hc)
      have hsettled : ∃ L', settleDeadline P ctx L j (.new a false) (.new j.buyer false)
          (some (.new k false)) = .ok L' :=
        settleDeadline_succeeds _ h hj rfl (.inr ⟨hs, _, c', rfl, hk, hck, hdue, rfl, rfl⟩)
      obtain ⟨L', hok⟩ := hsettled
      exact ⟨ctx, _, _, _, L', rfl, rfl, hok⟩

/-- The planner asks what the processors ask. -/
theorem passesChecks_iff (h : Sound P L) (hj : L.recordAt P.programId a = some (.job j)) :
    PassesChecks P L a j now ix ↔ TimeoutDue P L a j now ix := by
  cases ix with
  | expireUnfunded => exact passesChecks_expireUnfunded h hj
  | resolveTimeoutRefund => exact passesChecks_resolveTimeoutRefund
  | resolveTimeoutSettle => exact passesChecks_resolveTimeoutSettle h hj
  | _ => exact Iff.rfl

/-- In every reached ledger the planner offers a plan exactly while one of the three instructions
passes its checks on the job. The plan is that instruction, which the program carries out at that
time when the job's accounts are in order, and no call of it goes through at another time. -/
theorem timeout_plan_agrees (h : Reached P L) (hj : L.recordAt P.programId a = some (.job j))
    (hasks : req.Asks P cfg j) (hd : Derivable P a j) :
    ((∃ plan, buildTimeoutPlan P cfg (.of L now) req = .ok plan) ↔
      ∃ ix, PassesChecks P L a j now ix) ∧
    (∀ plan, buildTimeoutPlan P cfg (.of L now) req = .ok plan →
      ∃ ix ci, (∀ ix', PassesChecks P L a j now ix' ↔ ix' = ix) ∧
        plan.toSolanaInstructions = .ok [ci] ∧ Resolves P a j ix ci ∧
        (P.CollisionFree (DerivedIn P L) → InOrder P L a j → ∀ ctx : Ctx,
          ctx.accounts = ci.accounts → ctx.now = now →
            ∃ L' ev, process P ctx L ci.data = .ok (L', ev))) ∧
    ∀ (ix : Instruction) (ctx : Ctx) (data : List UInt8) (m : AccountMeta),
      (ix = .expireUnfunded ∨ ix = .resolveTimeoutRefund ∨ ix = .resolveTimeoutSettle) →
        Instruction.parse data = .ok ix → ctx.accounts[1]? = some m → m.key = a →
          Gated (fun t => process P (ctx.at t) L data) fun t => PassesChecks P L a j t ix := by
  have hs := Sound.of_reached h
  simp only [buildTimeoutPlan_eq_ok hs hj hasks, passesChecks_iff hs hj]
  refine ⟨⟨?_, ?_⟩, ?_, ?_⟩
  · rintro ⟨plan, payer, -, -, hplan⟩
    obtain ⟨ix, ci, hdue, -⟩ := due_of_planTimeout hs hj hplan
    exact ⟨ix, hdue⟩
  · rintro ⟨ix, hdue⟩
    obtain ⟨payer, hpayer⟩ := hasks.payer
    obtain ⟨hlive, plan, hplan⟩ := planTimeout_of_due payer hs hj hd hdue
    exact ⟨plan, payer, hpayer, hlive, hplan⟩
  · rintro plan ⟨payer, -, -, hplan⟩
    obtain ⟨ix, ci, hdue, hci, hresolves⟩ := due_of_planTimeout hs hj hplan
    refine ⟨ix, ci, fun ix' => ⟨hdue.unique, fun he => he ▸ hdue⟩, hci, hresolves, ?_⟩
    rintro hP hready ctx hctx rfl
    obtain ⟨L', ev, -, hok, -⟩ :=
      planTimeout_succeeds hP hs hj hready hplan hci hctx (Int64.le_refl _)
    exact ⟨L', ev, hok⟩
  · rintro ix ctx data m hix hparse hm rfl
    exact gated_timeout hs hj hix hparse hm

end Agreement

namespace Sample

theorem inOrder_submittedJob : InOrder platform submittedLedger jobKey submittedJob := by
  obtain ⟨-, -, hescrow, hprovider, hbuyer⟩ := views_submittedLedger
  have hata : platform.ata jobKey submittedJob.mint = some escrow ∧
      platform.ata submittedJob.buyer submittedJob.mint = some buyerToken ∧
      platform.ata submittedJob.provider submittedJob.mint = some providerToken := by
    decide
  obtain ⟨hatae, hatab, hatap⟩ := hata
  constructor
  · rintro - k hk
    cases hatae.symm.trans hk
    exact ⟨_, hescrow, rfl⟩
  · rintro - k hk
    cases hatab.symm.trans hk
    exact ⟨_, hbuyer, ordinary_holding buyer 700⟩
  · rintro - k hk
    cases hatap.symm.trans hk
    exact ⟨_, hprovider, ordinary_holding provider 380⟩

/-- At its automatic settlement, and not before, there is a plan for the sample job, and the
program carries it out. -/
theorem timeout_plan_agrees_sample :
    (∃ plan ci, buildTimeoutPlan platform appConfig (.of submittedLedger 400) timeoutRequest =
        .ok plan ∧ plan.toSolanaInstructions = .ok [ci] ∧
      ∃ L' ev, process platform ⟨ci.accounts, 400, [], 0⟩ submittedLedger ci.data =
        .ok (L', ev)) ∧
    ¬ ∃ plan, buildTimeoutPlan platform appConfig (.of submittedLedger 399) timeoutRequest =
      .ok plan := by
  have hagrees (now : Int64) := @timeout_plan_agrees platform submittedLedger jobKey submittedJob
    now appConfig timeoutRequest reached_submittedLedger job_at_submittedLedger asks_timeoutRequest
    derivable_submittedJob
  constructor
  · obtain ⟨hplanned, hcarried, -⟩ := hagrees 400
    let ctx : Ctx := { accounts := [], now := 400, instructions := [], currentIndex := 0 }
    obtain ⟨plan, hplan⟩ := hplanned.mpr ⟨.resolveTimeoutSettle, ctx, .new jobKey false,
      .new buyer false, none, submittedLedger, rfl, rfl, rfl⟩
    obtain ⟨ix, ci, -, hci, -, hok⟩ := hcarried plan hplan
    exact ⟨plan, ci, hplan, hci, hok collisionFree inOrder_submittedJob _ rfl rfl⟩
  · rw [(hagrees 399).1]
    rintro ⟨ix, hchecks⟩
    have hdue := (passesChecks_iff (Sound.of_reached reached_submittedLedger)
      job_at_submittedLedger).mp hchecks
    obtain rfl := Option.some.inj hdue.instruction
    rcases hdue with ⟨-, hdue⟩ | ⟨hs, -⟩
    · exact absurd hdue (by decide)
    · cases hs

/-- The settlement of the sample job that is planned at its deadline goes through later. -/
theorem planned_timeout_succeeds_submitted :
    ∃ (ci : ChainInstruction) (L' : Ledger) (ev : ProtocolEvent) (j' : JobAccount),
      process platform ⟨ci.accounts, 500, [], 0⟩ submittedLedger ci.data = .ok (L', ev) ∧
      L'.recordAt platform.programId jobKey = some (.job j') ∧
        submittedJob.state.timedOut = some j'.state := by
  have hs := Sound.of_reached reached_submittedLedger
  have hdue : TimeoutDue platform submittedLedger jobKey submittedJob 400 .resolveTimeoutSettle :=
    .inl ⟨rfl, by decide⟩
  obtain ⟨hlive, plan, hplanned⟩ := planTimeout_of_due admin hs job_at_submittedLedger
    derivable_submittedJob hdue
  have hplan := (buildTimeoutPlan_eq_ok hs job_at_submittedLedger asks_timeoutRequest).mpr
    ⟨admin, Base58.decodeKey_encode _, hlive, hplanned⟩
  obtain ⟨-, ci, -, hci, -⟩ := due_of_planTimeout hs job_at_submittedLedger hplanned
  exact ⟨ci, planned_timeout_succeeds collisionFree
    reached_submittedLedger job_at_submittedLedger asks_timeoutRequest inOrder_submittedJob hplan
    hci rfl (by decide : (400 : Int64) ≤ 500)⟩

theorem jobs_never_stuck_submitted :
    ∃ t, ∀ now, t ≤ now → ∃ plan ci,
      buildTimeoutPlan platform appConfig (.of submittedLedger now) timeoutRequest = .ok plan ∧
      plan.toSolanaInstructions = .ok [ci] ∧
      (∀ m ∈ ci.accounts, m.isSigner = true → Base58.decodeKey timeoutRequest.payer = some m.key) ∧
      ∀ ctx : Ctx, ctx.accounts = ci.accounts → now ≤ ctx.now → ∃ L' ev j',
        process platform ctx submittedLedger ci.data = .ok (L', ev) ∧
          L'.recordAt platform.programId jobKey = some (.job j') ∧ j'.state.isTerminal = true :=
  jobs_never_stuck collisionFree reached_submittedLedger job_at_submittedLedger rfl
    asks_timeoutRequest derivable_submittedJob inOrder_submittedJob

end Sample

end AgentBond
