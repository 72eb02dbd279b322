import AgentBond.Chain.Creation
import AgentBond.Foundation.Gated

/-! # Deadlines

Ten checks compare the clock with the deadlines of a job or of its challenge. In
each live state the two sides of a deadline divide the time between them, and
the clock decides about a call by these checks only.
-/

namespace AgentBond

open Foundation Protocol

section Deadlines

variable {P : Platform} {ctx : Ctx} {L L' : Ledger} {a : Pubkey} {j : JobAccount} {m : AccountMeta}
  {action : Action} {ev : ProtocolEvent} {data : List UInt8}

def Record.asChallenge : Record → Option ChallengeAccount
  | .challenge c => some c
  | _ => none

/-- The challenge at the address found for a job. -/
def openChallenge (P : Platform) (L : Ledger) (job : Pubkey) : Option ChallengeAccount :=
  (P.tryFindProgramAddress (challengeSeedParts job) P.programId).bind fun found =>
    (L.recordAt P.programId found.1).bind Record.asChallenge

/-- The check an instruction makes on the deadlines of a job and of its challenge. -/
def deadlineGuard (j : JobAccount) (challenge : Option ChallengeAccount) (now : Int64) :
    Instruction → Prop
  | .fundJob => now < j.fundDeadline
  | .expireUnfunded => j.fundDeadline ≤ now
  | .acceptJob => now < j.acceptDeadline
  | .expireUnaccepted => j.acceptDeadline ≤ now
  | .submitReceipt _ => now ≤ j.workDeadline
  | .resolveTimeoutRefund =>
    if j.state = .funded then j.acceptDeadline ≤ now else j.workDeadline < now
  | .challengeWork _ => now < j.autoSettleDeadline
  | .resolveTimeoutSettle =>
    if j.state = .challenged then ∃ c, challenge = some c ∧ c.deadline ≤ now
    else j.autoSettleDeadline ≤ now
  | .slashBond => ∃ c, challenge = some c ∧ now < c.deadline
  | _ => True

section Readings

variable {challenge : Option ChallengeAccount} {now : Int64}

theorem deadlineGuard_resolveTimeoutRefund : deadlineGuard j challenge now .resolveTimeoutRefund ↔
    if j.state = .funded then j.acceptDeadline ≤ now else j.workDeadline < now :=
  Iff.rfl

theorem deadlineGuard_resolveTimeoutSettle : deadlineGuard j challenge now .resolveTimeoutSettle ↔
    if j.state = .challenged then ∃ c, challenge = some c ∧ c.deadline ≤ now
    else j.autoSettleDeadline ≤ now :=
  Iff.rfl

end Readings

/-- What else an instruction asks of the clock: a receipt is valid for a time, and the deadline of
a new challenge must fit. -/
def clockGuard (P : Platform) (L : Ledger) (ctx : Ctx) (now : Int64) : Instruction → Prop
  | .submitReceipt r => now ≤ r.expiresAt ∧ r.createdAt ≤ now
  | .challengeWork _ => ∀ m c, ctx.accounts[1]? = some m →
      L.recordAt P.programId m.key = some (.config c) →
        ∃ deadline, checkedAddI64 now c.challengeDurationSeconds = some deadline
  | _ => True

/-- Where an instruction with a deadline check takes its job account. -/
def jobPosition : Instruction → Option ℕ
  | .fundJob | .submitReceipt _ | .challengeWork _ | .slashBond => some 2
  | .acceptJob => some 4
  | .expireUnfunded | .expireUnaccepted | .resolveTimeoutRefund | .resolveTimeoutSettle => some 1
  | _ => none

/-- The call at another time. -/
def Ctx.at (ctx : Ctx) (now : Int64) : Ctx := { ctx with now }

@[simp] theorem Ctx.accounts_at (now : Int64) : (ctx.at now).accounts = ctx.accounts := rfl

@[simp] theorem Ctx.now_at (now : Int64) : (ctx.at now).now = now := rfl

@[simp] theorem verifyPrecedingEd25519_at (now : Int64) (message : List UInt8) :
    verifyPrecedingEd25519 (ctx.at now) m message = verifyPrecedingEd25519 ctx m message := rfl

section Guards

theorem eq_of_loadValidatedJob {j' : JobAccount} (hj : L.recordAt P.programId m.key = some (.job j))
    (h : loadValidatedJob P L m = .ok j') : j' = j := by
  simpa using (loadValidatedJob_eq_ok.mp h).1.symm.trans hj

theorem gated_fundJob (hj : L.recordAt P.programId m.key = some (.job j))
    (hm : ctx.accounts[2]? = some m) :
    Gated (fun now => fundJob P (ctx.at now) L) fun now => now < j.fundDeadline ∧ True := by
  simp only [fundJob, Ctx.accounts_at, Ctx.now_at]
  rcases hacc : ctx.accounts with
    _ | ⟨_, _ | ⟨_, _ | ⟨m', _ | ⟨_, _ | ⟨_, _ | ⟨_, _ | ⟨_, _⟩⟩⟩⟩⟩⟩⟩
  iterate 7 exact .error
  obtain rfl : m' = m := by simpa [hacc] using hm
  iterate 5 refine .bind fun _ _ => ?_
  refine .bind fun j' hj' => ?_
  obtain rfl := eq_of_loadValidatedJob hj hj'
  iterate 2 refine .bind fun _ _ => ?_
  refine .ensure_bind ?_
  iterate 11 refine .bind fun _ _ => ?_
  exact .ok

theorem gated_acceptJob (hj : L.recordAt P.programId m.key = some (.job j))
    (hm : ctx.accounts[4]? = some m) :
    Gated (fun now => acceptJob P (ctx.at now) L) fun now => now < j.acceptDeadline ∧ True := by
  simp only [acceptJob, Ctx.accounts_at, Ctx.now_at]
  rcases hacc : ctx.accounts with _ | ⟨_, _ | ⟨_, _ | ⟨_, _ | ⟨_, _ | ⟨m', _⟩⟩⟩⟩⟩
  iterate 5 exact .error
  obtain rfl : m' = m := by simpa [hacc] using hm
  iterate 8 refine .bind fun _ _ => ?_
  refine .bind fun j' hj' => ?_
  obtain rfl := eq_of_loadValidatedJob hj hj'
  iterate 2 refine .bind fun _ _ => ?_
  refine .ensure_bind ?_
  iterate 10 refine .bind fun _ _ => ?_
  exact .ok

theorem gated_submitReceipt {r : AgentBondWorkReceiptV1}
    (hj : L.recordAt P.programId m.key = some (.job j)) (hm : ctx.accounts[2]? = some m) :
    Gated (fun now => submitReceipt P (ctx.at now) L r)
      fun now => now ≤ j.workDeadline ∧ now ≤ r.expiresAt ∧ r.createdAt ≤ now := by
  simp only [submitReceipt, Ctx.accounts_at, Ctx.now_at, verifyPrecedingEd25519_at]
  rcases hacc : ctx.accounts with _ | ⟨_, _ | ⟨_, _ | ⟨m', _ | ⟨_, _⟩⟩⟩⟩
  iterate 4 exact .error
  obtain rfl : m' = m := by simpa [hacc] using hm
  iterate 4 refine .bind fun _ _ => ?_
  refine .bind fun j' hj' => ?_
  obtain rfl := eq_of_loadValidatedJob hj hj'
  iterate 2 refine .bind fun _ _ => ?_
  have hrest : ∀ now : Int64, (now ≤ j'.workDeadline ∧ now ≤ r.expiresAt ∧ r.createdAt ≤ now) ↔
      now ≤ j'.workDeadline ∧ now ≤ r.expiresAt ∧ r.createdAt ≤ now ∧ True := by simp
  simp only [hrest]
  iterate 3 refine .ensure_bind ?_
  iterate 7 refine .bind fun _ _ => ?_
  exact .ok

theorem gated_expireUnfunded (hj : L.recordAt P.programId m.key = some (.job j))
    (hm : ctx.accounts[1]? = some m) :
    Gated (fun now => expireUnfunded P (ctx.at now) L) fun now => j.fundDeadline ≤ now ∧ True := by
  simp only [expireUnfunded, Ctx.accounts_at, Ctx.now_at]
  rcases hacc : ctx.accounts with _ | ⟨_, _ | ⟨m', _⟩⟩
  iterate 2 exact .error
  obtain rfl : m' = m := by simpa [hacc] using hm
  refine .bind fun _ _ => ?_
  refine .bind fun j' hj' => ?_
  obtain rfl := eq_of_loadValidatedJob hj hj'
  refine .bind fun _ _ => ?_
  refine .ensure_bind ?_
  iterate 2 refine .bind fun _ _ => ?_
  exact .ok

theorem len_of_writeAccountData {bytes : List UInt8} (h : writeAccountData L m bytes = .ok L')
    (k : Pubkey) : (L'.account k).data.len = (L.account k).data.len := by
  simp only [writeAccountData, bind_eq_ok, requireWritable, ensure_eq_ok, exists_const,
    Except.ok.injEq] at h
  obtain ⟨-, hlen, rfl⟩ := h
  by_cases hk : k = m.key
  · subst hk
    rw [Ledger.account_put_self, hlen]
    rfl
  · rw [Ledger.account_put_of_ne _ _ hk]

theorem writable_of_writeAccountData {bytes : List UInt8}
    (h : writeAccountData L m bytes = .ok L') :
    m.isWritable = true ∧ (L.account m.key).data.len = bytes.length := by
  simp only [writeAccountData, bind_eq_ok, requireWritable, ensure_eq_ok, exists_const,
    Except.ok.injEq] at h
  exact ⟨h.1, h.2.1⟩

theorem saves_challenge {L₁ L₂ L₃ : Ledger} {n : AccountMeta} {j' : JobAccount} {bump : UInt8}
    {key reasonHash : Pubkey} {deadline : Int64} (deadline' : Int64)
    (h₁ : saveChallenge L₁ n (j.challenge bump key reasonHash deadline) = .ok L₂)
    (h₂ : saveJob L₂ m j' = .ok L₃) :
    ∃ L₂' L₃', saveChallenge L₁ n (j.challenge bump key reasonHash deadline') = .ok L₂' ∧
      saveJob L₂' m j' = .ok L₃' := by
  simp only [saveChallenge, bind_eq_ok, orFail_eq_ok] at h₁
  obtain ⟨bytes, hbytes, hwrite⟩ := h₁
  have hlen := (ChallengeAccount.of_decode (ChallengeAccount.decode_of_encode hbytes)).1
  obtain ⟨hw, hn⟩ := writable_of_writeAccountData hwrite
  obtain ⟨L₂', hL₂'⟩ := saveChallenge_open_succeeds j bump key reasonHash deadline' hw
    (hn.trans hlen)
  have hwrite' := hL₂'
  simp only [saveChallenge, bind_eq_ok, orFail_eq_ok] at hwrite'
  obtain ⟨bytes', -, hwrite'⟩ := hwrite'
  obtain ⟨hw₂, hm⟩ := writable_of_writeAccountData h₂
  obtain ⟨L₃', hL₃'⟩ := writeAccountData_succeeds hw₂
    (by rw [len_of_writeAccountData hwrite', ← len_of_writeAccountData hwrite, hm])
  exact ⟨L₂', L₃', hL₂', hL₃'⟩

theorem gated_challengeWork {reasonHash : Pubkey}
    (hj : L.recordAt P.programId m.key = some (.job j)) (hm : ctx.accounts[2]? = some m) :
    Gated (fun now => challengeWork P (ctx.at now) L reasonHash)
      fun now => now < j.autoSettleDeadline ∧
        clockGuard P L ctx now (.challengeWork reasonHash) := by
  simp only [challengeWork, Ctx.accounts_at, Ctx.now_at]
  rcases hacc : ctx.accounts with _ | ⟨_, _ | ⟨n, _ | ⟨m', _ | ⟨_, _ | ⟨_, _⟩⟩⟩⟩⟩
  iterate 5 exact .error
  obtain rfl : m' = m := by simpa [hacc] using hm
  iterate 3 refine .bind fun _ _ => ?_
  refine .bind fun c hc => ?_
  refine .bind fun j' hj' => ?_
  obtain rfl := eq_of_loadValidatedJob hj hj'
  iterate 2 refine .bind fun _ _ => ?_
  refine .ensure_bind ?_
  refine .bind fun found _ => ?_
  iterate 2 refine .bind fun _ _ => ?_
  -- The deadline of the challenge depends on the clock; that it is saved does not.
  have hgate : ∀ now, (∃ deadline, checkedAddI64 now c.challengeDurationSeconds = some deadline) ↔
      clockGuard P L ctx now (.challengeWork reasonHash) := by
    simp only [loadValidatedConfigReadonly, bind_eq_ok, loadValidatedConfig_eq_ok] at hc
    obtain ⟨_, -, hc, -⟩ := hc
    intro now
    simp only [clockGuard, hacc, List.getElem?_cons_succ, List.getElem?_cons_zero,
      Option.some.injEq]
    constructor
    · rintro hfits n' c' rfl hc'
      obtain rfl : c = c' := by simpa using hc.symm.trans hc'
      exact hfits
    · intro h
      exact h n c rfl hc
  simp only [← hgate]
  refine Gated.okOr.bind_gated ?_
  intro t t' d d' _ _ b hb
  simp only [bind_eq_ok, Except.ok.injEq] at hb ⊢
  obtain ⟨L₁, hcreate, L₂, hsave, job', hjob', L₃, hsave', rfl⟩ := hb
  obtain ⟨L₂', L₃', h₂, h₃⟩ := saves_challenge d' hsave hsave'
  exact ⟨_, L₁, hcreate, L₂', h₂, job', hjob', L₃', h₃, rfl⟩

theorem openChallenge_of_record {k : Pubkey} {c : ChallengeAccount} (h : Sound P L)
    (hk : L.recordAt P.programId k = some (.challenge c)) :
    openChallenge P L c.job = some c := by
  have hfound := h.challenge_found hk
  rw [openChallenge, hfound, Option.bind_some, hk, Option.bind_some]
  rfl

theorem openChallenge_of_loadValidated {c : ChallengeAccount} (h : Sound P L)
    (hc : loadValidatedChallenge P L m a = .ok c) : openChallenge P L a = some c := by
  obtain ⟨hrecord, -, rfl⟩ := loadValidatedChallenge_eq_ok.mp hc
  exact openChallenge_of_record h hrecord

theorem gated_slashBond (h : Sound P L) (hj : L.recordAt P.programId m.key = some (.job j))
    (hm : ctx.accounts[2]? = some m) :
    Gated (fun now => slashBond P (ctx.at now) L)
      fun now => (∃ c, openChallenge P L m.key = some c ∧ now < c.deadline) ∧ True := by
  simp only [slashBond, Ctx.accounts_at, Ctx.now_at]
  rcases hacc : ctx.accounts with _ | ⟨_, _ | ⟨_, _ | ⟨m', _ | ⟨_, _ | ⟨_, _ | ⟨_, _ | ⟨_, _ | ⟨_,
    _ | ⟨_, _ | ⟨_, _ | ⟨_, _⟩⟩⟩⟩⟩⟩⟩⟩⟩⟩⟩
  iterate 11 exact .error
  obtain rfl : m' = m := by simpa [hacc] using hm
  iterate 7 refine .bind fun _ _ => ?_
  refine .bind fun j' hj' => ?_
  refine .bind fun _ _ => ?_
  refine .bind fun c hc => ?_
  refine .bind fun _ _ => ?_
  simp only [openChallenge_of_loadValidated h hc, Option.some.injEq, exists_eq_left']
  refine .ensure_bind ?_
  iterate 14 refine .bind fun _ _ => ?_
  exact .ok

theorem gated_settleDeadline {buyer : AccountMeta} {challengeAccount : Option AccountMeta}
    (h : Sound P L) :
    Gated (fun now => settleDeadline P (ctx.at now) L j m buyer challengeAccount) fun now =>
      (if j.state = .challenged then ∃ c, openChallenge P L m.key = some c ∧ c.deadline ≤ now
        else j.autoSettleDeadline ≤ now) ∧ True := by
  simp only [settleDeadline, Ctx.now_at]
  cases hs : j.state with
  | submitted =>
    simp only [reduceCtorEq, if_false]
    exact .ensure_bind .ok
  | challenged =>
    simp only [if_true]
    refine .bind fun n _ => ?_
    refine .bind fun c hc => ?_
    refine .bind fun _ _ => ?_
    simp only [openChallenge_of_loadValidated h hc, Option.some.injEq, exists_eq_left']
    refine .ensure_bind ?_
    iterate 2 refine .bind fun _ _ => ?_
    exact .of_steady fun _ _ a ha => ⟨a, ha⟩
  | _ => exact .error

theorem settleDeadline_unique {buyer : AccountMeta} {challengeAccount : Option AccountMeta}
    {t t' : Int64} {L₁ L₂ : Ledger}
    (h₁ : settleDeadline P (ctx.at t) L j m buyer challengeAccount = .ok L₁)
    (h₂ : settleDeadline P (ctx.at t') L j m buyer challengeAccount = .ok L₂) : L₁ = L₂ := by
  cases hs : j.state with
  | submitted =>
    simp only [settleDeadline, hs, bind_eq_ok, Except.ok.injEq] at h₁ h₂
    obtain ⟨_, -, rfl⟩ := h₁
    obtain ⟨_, -, rfl⟩ := h₂
    rfl
  | challenged =>
    simp only [settleDeadline, hs, bind_eq_ok, okOr_eq_ok] at h₁ h₂
    obtain ⟨n, hn, _, -, _, -, _, -, _, -, _, -, h₁⟩ := h₁
    obtain ⟨n', hn', _, -, _, -, _, -, _, -, _, -, h₂⟩ := h₂
    obtain rfl := Option.some.inj (hn.symm.trans hn')
    exact Except.ok.inj (h₁.symm.trans h₂)
  | _ =>
    simp only [settleDeadline, hs] at h₁
    cases h₁

theorem gated_resolveTimeoutSettle (h : Sound P L)
    (hj : L.recordAt P.programId m.key = some (.job j)) (hm : ctx.accounts[1]? = some m) :
    Gated (fun now => resolveTimeoutSettle P (ctx.at now) L) fun now =>
      (if j.state = .challenged then ∃ c, openChallenge P L m.key = some c ∧ c.deadline ≤ now
        else j.autoSettleDeadline ≤ now) ∧ True := by
  simp only [resolveTimeoutSettle, Ctx.accounts_at]
  rcases hacc : ctx.accounts with _ | ⟨_, _ | ⟨m', _ | ⟨_, _ | ⟨_, _ | ⟨_, _ | ⟨_, _ | ⟨_, _ | ⟨_,
    _ | ⟨_, rest⟩⟩⟩⟩⟩⟩⟩⟩⟩
  iterate 9 exact .error
  obtain rfl : m' = m := by simpa [hacc] using hm
  iterate 3 refine .bind fun _ _ => ?_
  refine .bind fun j' hj' => ?_
  obtain rfl := eq_of_loadValidatedJob hj hj'
  refine (gated_settleDeadline h).bind_gated ?_
  intro t t' L₁ L₂ h₁ h₂ b hb
  obtain rfl := settleDeadline_unique h₁ h₂
  simp only [bind_eq_ok, Except.ok.injEq] at hb ⊢
  obtain ⟨_, h₁, _, h₂, _, h₃, _, h₄, _, h₅, _, h₆, _, h₇, L₃, h₈, -⟩ := hb
  exact ⟨_, _, h₁, _, h₂, _, h₃, _, h₄, _, h₅, _, h₆, _, h₇, L₃, h₈, rfl⟩

theorem gated_refundDeadline (fundedOnly : Bool) :
    Gated (fun now => refundDeadline (ctx.at now) j fundedOnly) fun now =>
      if j.state = .funded then j.acceptDeadline ≤ now else j.workDeadline < now := by
  simp only [refundDeadline, Ctx.now_at]
  cases hs : j.state with
  | funded =>
    simp only [if_true]
    exact .ensure
  | accepted =>
    simp only [reduceCtorEq, if_false]
    cases fundedOnly with
    | true => exact .error
    | false => exact .ensure
  | _ => exact .error

theorem gated_refundInternal (fundedOnly : Bool)
    (hj : L.recordAt P.programId m.key = some (.job j)) (hm : ctx.accounts[1]? = some m) :
    Gated (fun now => refundInternal P (ctx.at now) L fundedOnly) fun now =>
      if j.state = .funded then j.acceptDeadline ≤ now else j.workDeadline < now := by
  simp only [refundInternal, Ctx.accounts_at]
  rcases hacc : ctx.accounts with _ | ⟨_, _ | ⟨m', _ | ⟨_, _ | ⟨_, _ | ⟨_, _ | ⟨_, _ | ⟨_, _ | ⟨_,
    rest⟩⟩⟩⟩⟩⟩⟩⟩
  iterate 8 exact .error
  obtain rfl : m' = m := by simpa [hacc] using hm
  iterate 2 refine .bind fun _ _ => ?_
  refine .bind fun j' hj' => ?_
  obtain rfl := eq_of_loadValidatedJob hj hj'
  refine (gated_refundDeadline fundedOnly).bind_gated ?_
  intro t t' _ _ _ _ b hb
  simp only [bind_eq_ok, Except.ok.injEq] at hb ⊢
  obtain ⟨_, h₁, L₁, h₂, x, h₃, j₂, h₄, L₂, h₅, L₃, h₆, -⟩ := hb
  exact ⟨_, _, h₁, L₁, h₂, x, h₃, j₂, h₄, L₂, h₅, L₃, h₆, rfl⟩

theorem state_of_expireUnaccepted (ctx : Ctx) (hj : L.recordAt P.programId m.key = some (.job j))
    (hm : ctx.accounts[1]? = some m) (h : expireUnaccepted P ctx L = .ok (L', ev)) :
    j.state = .funded := by
  unfold expireUnaccepted refundInternal at h
  split at h
  · rename_i hacc
    rw [hacc, List.getElem?_cons_succ, List.getElem?_cons_zero, Option.some.injEq] at hm
    subst hm
    simp only [bind_eq_ok] at h
    obtain ⟨_, -, _, -, j', hj', _, hdue, -⟩ := h
    obtain rfl := eq_of_loadValidatedJob hj hj'
    unfold refundDeadline at hdue
    split at hdue
    · assumption
    · rename_i heq
      cases heq
    · cases hdue
  · cases h

/-- The clock decides about a call by its deadline check and what else it asks of the clock. -/
theorem gated_process (h : Sound P L) {ix : Instruction} {i : ℕ}
    (hj : L.recordAt P.programId m.key = some (.job j)) (hi : jobPosition ix = some i)
    (hparse : Instruction.parse data = .ok ix) (hm : ctx.accounts[i]? = some m) :
    Gated (fun now => process P (ctx.at now) L data) fun now =>
      deadlineGuard j (openChallenge P L m.key) now ix ∧ clockGuard P L ctx now ix := by
  simp only [process_of_parse hparse]
  cases ix with
  | fundJob => cases hi; exact gated_fundJob hj hm
  | acceptJob => cases hi; exact gated_acceptJob hj hm
  | submitReceipt r => cases hi; exact gated_submitReceipt hj hm
  | challengeWork reasonHash => cases hi; exact gated_challengeWork hj hm
  | resolveTimeoutSettle => cases hi; exact gated_resolveTimeoutSettle h hj hm
  | resolveTimeoutRefund =>
    cases hi
    refine (gated_refundInternal false hj hm).congr fun _ _ _ _ => ?_
    exact (iff_of_eq (and_true _)).symm
  | expireUnfunded => cases hi; exact gated_expireUnfunded hj hm
  | expireUnaccepted =>
    cases hi
    refine (gated_refundInternal true hj hm).congr fun now t' r hr => ?_
    have hfunded := state_of_expireUnaccepted (ctx.at t') hj hm hr
    rw [if_pos hfunded]
    exact (iff_of_eq (and_true _)).symm
  | slashBond => cases hi; exact gated_slashBond h hj hm
  | _ => cases hi

end Guards

section Order

/-- The order of the deadlines that a buyer may set. -/
structure JobAccount.Ordered (j : JobAccount) : Prop where
  fund : j.fundDeadline < j.acceptDeadline
  accept : j.acceptDeadline < j.workDeadline
  work : j.workDeadline < j.autoSettleDeadline

def Ordered (P : Platform) (L : Ledger) : Prop :=
  ∀ a j, L.recordAt P.programId a = some (.job j) → j.Ordered

theorem ordered_of_createJob {payload : CreateJobPayload} {c : ConfigAccount} {bump : UInt8}
    {buyer provider : Pubkey} (h : createJob P ctx L payload = .ok (L', ev)) :
    (payload.job c bump buyer provider).Ordered := by
  unfold createJob at h
  split at h
  · simp only [bind_eq_ok, ensure_eq_ok, exists_const] at h
    obtain ⟨_, -, _, -, _, -, _, -, _, -, -, -, ⟨-, hfund, haccept, hwork⟩, -⟩ := h
    exact ⟨hfund, haccept, hwork⟩
  · cases h

/-- No instruction changes the deadlines of a job. -/
theorem ordered_of_evolves {now : Int64} {ix : Instruction} {o : Option Record}
    (h : Evolves now ix o (some (.job j))) (ho : ∀ j₀, o = some (.job j₀) → j₀.Ordered)
    (hc : ∀ payload c bump buyer provider, ix = .createJob payload →
      (payload.job c bump buyer provider).Ordered) : j.Ordered := by
  cases h with
  | jobCreated => exact hc _ _ _ _ _ rfl
  | jobFunded | jobAccepted | jobSubmitted | jobChallenged | jobPaid | jobExpired =>
    have h₀ := ho _ rfl
    exact ⟨h₀.fund, h₀.accept, h₀.work⟩

theorem Ordered.step (h : Ordered P L) (hs : ChainStep P L action L') : Ordered P L' := by
  intro a j hj
  rcases hs.evolved a with hsame | ⟨ctx, data, ix, hlabel, hparse, hevolves⟩
  · exact h a j (hsame ▸ hj)
  · subst hlabel
    cases hs with
    | instruction signers ok =>
      rw [hj] at hevolves
      refine ordered_of_evolves hevolves (h a) ?_
      rintro payload c bump buyer provider rfl
      rw [process_of_parse hparse] at ok
      exact ordered_of_createJob ok

theorem ordered_of_reached (h : Reached P L) : Ordered P L := by
  refine h.invariant (I := Ordered P) ?_ fun _ _ _ => Ordered.step
  intro L hL a j hj
  rw [hL.recordAt_eq] at hj
  cases hj

end Order

section Partition

theorem xor_lt_le (x y : Int64) : Xor (x < y) (y ≤ x) := by
  rw [← Int64.not_lt]
  exact xor_not_right.mpr Iff.rfl

theorem Sound.openChallenge (h : Sound P L) (hj : L.recordAt P.programId a = some (.job j))
    (hs : j.state = .challenged) : ∃ c, openChallenge P L a = some c := by
  obtain ⟨k, c, hk, rfl⟩ := h.inv.linked.challenged hj hs
  exact ⟨c, openChallenge_of_record h hk⟩

/-- In each live state exactly one side of the deadline passes its check. -/
structure Partition (j : JobAccount) (challenge : Option ChallengeAccount) (now : Int64) :
    Prop where
  created : j.state = .created →
    Xor (deadlineGuard j challenge now .fundJob) (deadlineGuard j challenge now .expireUnfunded)
  funded : j.state = .funded →
    Xor (deadlineGuard j challenge now .acceptJob)
        (deadlineGuard j challenge now .resolveTimeoutRefund) ∧
      Xor (deadlineGuard j challenge now .acceptJob)
        (deadlineGuard j challenge now .expireUnaccepted)
  accepted : j.state = .accepted → ∀ r,
    Xor (deadlineGuard j challenge now (.submitReceipt r))
      (deadlineGuard j challenge now .resolveTimeoutRefund)
  submitted : j.state = .submitted → ∀ reasonHash,
    Xor (deadlineGuard j challenge now (.challengeWork reasonHash))
      (deadlineGuard j challenge now .resolveTimeoutSettle)
  challenged : j.state = .challenged →
    Xor (deadlineGuard j challenge now .slashBond)
      (deadlineGuard j challenge now .resolveTimeoutSettle)

theorem Sound.partition (h : Sound P L) (hj : L.recordAt P.programId a = some (.job j))
    (now : Int64) : Partition j (AgentBond.openChallenge P L a) now where
  created := fun _ => xor_lt_le now j.fundDeadline
  funded := fun hs => by
    rw [deadlineGuard_resolveTimeoutRefund, if_pos hs]
    exact ⟨xor_lt_le now j.acceptDeadline, xor_lt_le now j.acceptDeadline⟩
  accepted := fun hs r => by
    rw [deadlineGuard_resolveTimeoutRefund, if_neg (by simp [hs])]
    exact (xor_comm _ _).mp (xor_lt_le j.workDeadline now)
  submitted := fun hs reasonHash => by
    rw [deadlineGuard_resolveTimeoutSettle, if_neg (by simp [hs])]
    exact xor_lt_le now j.autoSettleDeadline
  challenged := fun hs => by
    obtain ⟨c, hc⟩ := h.openChallenge hj hs
    have hslash : deadlineGuard j (AgentBond.openChallenge P L a) now .slashBond ↔
        now < c.deadline := by
      show (∃ c, AgentBond.openChallenge P L a = some c ∧ now < c.deadline) ↔ _
      simp only [hc, Option.some.injEq, exists_eq_left']
    rw [hslash, deadlineGuard_resolveTimeoutSettle, if_pos hs]
    simp only [hc, Option.some.injEq, exists_eq_left']
    exact xor_lt_le now c.deadline

theorem le_workDeadline_of_submitReceipt {r : AgentBondWorkReceiptV1}
    (hj : L.recordAt P.programId m.key = some (.job j)) (hm : ctx.accounts[2]? = some m)
    (h : submitReceipt P ctx L r = .ok (L', ev)) : ctx.now ≤ j.workDeadline :=
  (((gated_submitReceipt hj hm) ctx.now).mp ⟨_, h⟩).1.1

end Partition

end Deadlines

end AgentBond
