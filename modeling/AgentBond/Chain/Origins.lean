import AgentBond.Chain.Script

/-! # Where accepted accounts come from

An account that passes the check of its kind was created by the instruction of
that kind with the parameters it decodes to, and holds what a processor saved
there last. Nothing an adversary passes is taken for it.
-/

namespace AgentBond

open Foundation Protocol

/-- Two records of the same kind and with the same parameters. -/
def Record.SameObject : Record → Record → Prop
  | .config _, .config _ => True
  | .provider p, .provider p' => p.authority = p'.authority
  | .bond b, .bond b' => b.provider = b'.provider ∧ b.mint = b'.mint
  | .job j, .job j' => j.buyer = j'.buyer ∧ j.provider = j'.provider ∧ j.jobNonce = j'.jobNonce
  | .challenge c, .challenge c' => c.job = c'.job
  | _, _ => False

/-- The account passes the check of the kind of the record, which is what it returns. -/
def Accepted (P : Platform) (L : Ledger) (m : AccountMeta) : Record → Prop
  | .config c => loadValidatedConfig P L m = .ok c
  | .provider p => loadValidatedProvider P L m = .ok p
  | .bond b => loadValidatedBond P L m = .ok b
  | .job j => loadValidatedJob P L m = .ok j
  | .challenge c => ∃ job, loadValidatedChallenge P L m job = .ok c

/-- The record that an instruction creates for the accounts it is passed. -/
inductive Creates (P : Platform) (L : Ledger) (ctx : Ctx) : Instruction → Record → Prop
  | config {payload : InitializeConfigPayload} {bump : UInt8} {admin : AccountMeta}
      (admin_at : ctx.accounts[0]? = some admin) (signed : admin.isSigner = true) :
      Creates P L ctx (.initializeConfig payload) (.config (payload.config bump admin.key))
  | provider {bump : UInt8} {authority : AccountMeta}
      (authority_at : ctx.accounts[0]? = some authority) (signed : authority.isSigner = true) :
      Creates P L ctx .registerProvider (.provider (.registered bump authority.key))
  | bond {amount : UInt64} {authority configAccount : AccountMeta} {c : ConfigAccount}
      {b : ProviderBondAccount} (authority_at : ctx.accounts[0]? = some authority)
      (signed : authority.isSigner = true) (config_at : ctx.accounts[1]? = some configAccount)
      (config : Accepted P L configAccount (.config c)) (provider_eq : b.provider = authority.key)
      (mint_eq : b.mint = c.allowedMint) : Creates P L ctx (.depositBond amount) (.bond b)
  | job {payload : CreateJobPayload} {buyer providerAccount : AccountMeta} {c : ConfigAccount}
      {p : ProviderAccount} {bump : UInt8} (buyer_at : ctx.accounts[0]? = some buyer)
      (signed : buyer.isSigner = true) (provider_at : ctx.accounts[2]? = some providerAccount)
      (provider : Accepted P L providerAccount (.provider p)) :
      Creates P L ctx (.createJob payload) (.job (payload.job c bump buyer.key p.authority))
  | challenge {reasonHash : Pubkey} {jobAccount : AccountMeta} {j : JobAccount} {bump : UInt8}
      {deadline : Int64} (job_at : ctx.accounts[2]? = some jobAccount)
      (job : Accepted P L jobAccount (.job j)) :
      Creates P L ctx (.challengeWork reasonHash)
        (.challenge (j.challenge bump jobAccount.key reasonHash deadline))

section Origins

variable {P : Platform} {ctx : Ctx} {L L' : Ledger} {a k : Pubkey} {r r' r₀ : Record}
  {m m' : AccountMeta} {ev : ProtocolEvent} {x : Transition Ledger Action}
  {tr : List (Transition Ledger Action)} {ix : Instruction}

namespace Record.SameObject

theorem refl (r : Record) : r.SameObject r := by
  cases r with
  | config => trivial
  | provider => rfl
  | bond => exact ⟨rfl, rfl⟩
  | job => exact ⟨rfl, rfl, rfl⟩
  | challenge => rfl

theorem seeds_eq (h : r.SameObject r') : r.seeds = r'.seeds := by
  cases r <;> cases r' <;> simp_all [SameObject, seeds]

theorem trans {r'' : Record} (h : r.SameObject r') (h' : r'.SameObject r'') :
    r.SameObject r'' := by
  cases r <;> cases r' <;> cases r'' <;> simp_all [SameObject]

end Record.SameObject

theorem sameObject_of_evolves {now : Int64} (h : Evolves now ix (some r) (some r')) :
    r.SameObject r' := by
  cases h with
  | configPaused => trivial
  | keyAdded added => exact (authority_of_addKey added).1.symm
  | keyRevoked revoked => exact (authority_of_revokeKey revoked).1.symm
  | bondChanged => exact ⟨rfl, rfl⟩
  | _ => exact ⟨rfl, rfl, rfl⟩

/-- What an instruction puts at a free address is what it creates. -/
def CreatesOnly (P : Platform) (L : Ledger) (ctx : Ctx) (ix : Instruction) (L' : Ledger) : Prop :=
  ∀ k r, L.recordAt P.programId k = none → L'.recordAt P.programId k = some r →
    Creates P L ctx ix r

theorem CreatesOnly.of_put (h : L'.recordAt P.programId =
      Function.update (L.recordAt P.programId) a (some r₀))
    (hr₀ : L.recordAt P.programId a = none → Creates P L ctx ix r₀) :
    CreatesOnly P L ctx ix L' := by
  intro k r hn hr
  rw [h] at hr
  by_cases hk : k = a
  · subst hk
    rw [Function.update_self, Option.some.injEq] at hr
    exact hr ▸ hr₀ hn
  · rw [Function.update_of_ne hk, hn] at hr
    cases hr

theorem creates_of_initializeConfig {payload : InitializeConfigPayload}
    (h : initializeConfig P ctx L payload = .ok (L', ev)) :
    CreatesOnly P L ctx (.initializeConfig payload) L' := by
  unfold initializeConfig at h
  split at h
  · rename_i hacc
    simp only [bind_eq_ok, requireSigner, ensure_eq_ok, exists_const, okOr_eq_ok, Prod.exists,
      Except.ok.injEq, Prod.mk.injEq] at h
    obtain ⟨hsign, _, -, _, -, -, -, -, a, bump, -, rfl, _, -, L₁, hcreate, L₂, hsave, rfl, rfl⟩ :=
      h
    obtain ⟨habs, hown, -⟩ := abs_of_createPdaAccount hcreate
    have hput := (saved_of_saveConfig hsave hown).abs_eq
    rw [habs] at hput
    exact .of_put (congrArg State.records hput) fun _ => .config (by rw [hacc]; rfl) hsign
  · cases h

theorem creates_of_registerProvider (h : registerProvider P ctx L = .ok (L', ev)) :
    CreatesOnly P L ctx .registerProvider L' := by
  unfold registerProvider at h
  split at h
  · rename_i hacc
    simp only [bind_eq_ok, requireSigner, ensure_eq_ok, exists_const, okOr_eq_ok, Prod.exists,
      Except.ok.injEq, Prod.mk.injEq] at h
    obtain ⟨hsign, _, -, c, -, _, -, a, bump, -, rfl, _, -, L₁, hcreate, L₂, hsave, rfl, rfl⟩ := h
    obtain ⟨habs, hown, -⟩ := abs_of_createPdaAccount hcreate
    have hput := (saved_of_saveProvider hsave hown).abs_eq
    rw [habs] at hput
    exact .of_put (congrArg State.records hput) fun _ => .provider (by rw [hacc]; rfl) hsign
  · cases h

theorem creates_of_createJob {payload : CreateJobPayload}
    (h : createJob P ctx L payload = .ok (L', ev)) :
    CreatesOnly P L ctx (.createJob payload) L' := by
  unfold createJob at h
  split at h
  · rename_i hacc
    simp only [bind_eq_ok, requireSigner, ensure_eq_ok, exists_const, okOr_eq_ok, Prod.exists,
      Except.ok.injEq, Prod.mk.injEq] at h
    obtain ⟨hsign, _, -, c, -, _, -, _, -, -, -, -, p, hp, -, a, bump, -, rfl, _, -, L₁, hcreate,
      L₂, hsave, rfl, rfl⟩ := h
    obtain ⟨habs, hown, -⟩ := abs_of_createPdaAccount hcreate
    have hput := (saved_of_saveJob hsave hown).abs_eq
    rw [habs] at hput
    exact .of_put (congrArg State.records hput) fun _ =>
      .job (by rw [hacc]; rfl) hsign (by rw [hacc]; rfl) hp
  · cases h

theorem creates_of_challengeWork {reasonHash : Pubkey}
    (h : challengeWork P ctx L reasonHash = .ok (L', ev)) :
    CreatesOnly P L ctx (.challengeWork reasonHash) L' := by
  unfold challengeWork at h
  split at h
  · rename_i hacc
    simp only [bind_eq_ok, ensure_eq_ok, exists_const, okOr_eq_ok, Prod.exists, Except.ok.injEq,
      Prod.mk.injEq] at h
    obtain ⟨_, -, _, -, _, -, c, -, j, hj, -, -, -, a, bump, -, rfl, _, -, deadline, -, L₁, hcreate,
      L₂, hsavec, j', -, L₃, hsavej, rfl, rfl⟩ := h
    have hjob := (loadValidatedJob_eq_ok.mp hj).1
    obtain ⟨habs, hown, -⟩ := abs_of_createPdaAccount hcreate
    have hput := (saved_of_saveChallenge hsavec hown).abs_eq
    rw [habs] at hput
    have hput' := (saved_of_saveJob hsavej (owner_of_put hput hjob)).abs_eq
    intro k r hn hr
    have hk : k ≠ _ := fun hk => by rw [hk, hjob] at hn; cases hn
    rw [← records_abs, hput', State.records_put_of_ne hk] at hr
    have hrecords : L₂.recordAt P.programId = _ := congrArg State.records hput
    exact CreatesOnly.of_put hrecords (fun _ => .challenge (by rw [hacc]; rfl) hj) k r hn hr
  · cases h

theorem creates_of_depositBond {amount : UInt64}
    (h : depositBond P ctx L amount = .ok (L', ev)) :
    CreatesOnly P L ctx (.depositBond amount) L' := by
  unfold depositBond at h
  split at h
  · rename_i hacc
    simp only [bind_eq_ok, requireSigner, loadValidatedConfigReadonly, validateTokenAccount_eq_ok,
      ensure_eq_ok, exists_const, okOr_eq_ok, Prod.exists, Except.ok.injEq, Prod.mk.injEq] at h
    obtain ⟨hsign, _, -, _, -, -, c, ⟨_, -, hc⟩, _, -, -, p, -, -, -, _, -, m, ⟨ts, hts, hord, -⟩,
      a, bump, -, rfl, L₁, b, hopen, n, -, v, -, -, L₂, hxfer, deposited, -, L₃, hsave, rfl, rfl⟩ :=
      h
    obtain ⟨habs, hown, hprov, hmint, -, -⟩ := abs_of_openBond hopen
    have htok : L₁.tokenAt = L.tokenAt := congrArg State.tokens habs
    obtain ⟨hpay, -, -⟩ := abs_of_transferChecked hxfer (htok ▸ hts) hord.undelegated
    have hsame := account_of_transferChecked hxfer (htok ▸ hts) hord.undelegated hown
    obtain ⟨hsaved, -⟩ := saved_of_saveBond hsave (by rw [hsame, hown])
    have hput := hsaved.abs_eq
    rw [hpay, habs] at hput
    exact .of_put (congrArg State.records hput) fun _ =>
      .bond (by rw [hacc]; rfl) hsign (by rw [hacc]; rfl) hc hprov hmint
  · cases h

/-- The instructions that create records. -/
def createsRecord : Instruction → Bool
  | .initializeConfig _ | .registerProvider | .depositBond _ | .createJob _ | .challengeWork _ =>
    true
  | _ => false

theorem records_put_of_free {s u : State} (ha : s.records a = some r₀) (hk : s.records k = none) :
    (u.put a r).records k = u.records k :=
  State.records_put_of_ne fun h => by rw [h, ha] at hk; cases hk

theorem records_drop_of_free {u : State} (hk : u.records k = none) :
    (u.drop a).records k = none := by
  by_cases h : k = a
  · rw [h, State.records_drop_self]
  · rw [State.records_drop_of_ne h, hk]

theorem settlement_free {s : State} (x : Settlement P s) (hk : s.records k = none) :
    x.result.records k = none := by
  rw [Settlement.result, records_put_of_free x.job_at hk, records_put_of_free x.bond_at hk]
  exact hk

theorem Step.creates {now : Int64} {s s' : State} (hs : Step P now s ix s')
    (hk : s.records k = none) (hr : s'.records k = some r) : createsRecord ix = true := by
  by_contra hix
  suffices h : s'.records k = none by
    rw [hr] at h
    cases h
  cases hs with
  | initializeConfig | registerProvider | depositBond | createJob | challengeWork =>
    exact absurd rfl hix
  | setPaused config_at => rw [records_put_of_free config_at hk, hk]
  | addExecutionKey provider_at => rw [records_put_of_free provider_at hk, hk]
  | revokeExecutionKey provider_at => rw [records_put_of_free provider_at hk, hk]
  | withdrawBond bond_at => rw [records_put_of_free bond_at hk, State.records_pay, hk]
  | fundJob job_at => rw [records_put_of_free job_at hk, State.records_pay, hk]
  | acceptJob _ job_at _ _ bond_at =>
    rw [records_put_of_free job_at hk, records_put_of_free bond_at hk, hk]
  | submitReceipt _ job_at => rw [records_put_of_free job_at hk, hk]
  | acceptWork x => exact settlement_free x hk
  | settleSubmitted x => exact settlement_free x hk
  | settleChallenged _ x => exact settlement_free x (records_drop_of_free hk)
  | refund _ x =>
    rw [Refund.result, records_put_of_free x.job_at hk]
    exact hk
  | refundWith _ x _ y =>
    rw [Refund.resultWith, records_put_of_free x.job_at hk, records_put_of_free y.bond_at hk]
    exact hk
  | expireUnfunded job_at => rw [records_put_of_free job_at hk, hk]
  | slashBond _ x =>
    refine records_drop_of_free ?_
    rw [Slashing.result, records_put_of_free x.job_at hk, records_put_of_free x.bond_at hk]
    exact hk
  | closeJob => exact records_drop_of_free hk
  | closeJobWith => exact records_drop_of_free (by rwa [State.records_removeToken])

theorem creates_of_processInstruction {now : Int64}
    (hs : Step P now (abs P L) ix (abs P L'))
    (h : processInstruction P ctx L ix = .ok (L', ev)) : CreatesOnly P L ctx ix L' := by
  cases ix with
  | initializeConfig => exact creates_of_initializeConfig h
  | registerProvider => exact creates_of_registerProvider h
  | depositBond => exact creates_of_depositBond h
  | createJob => exact creates_of_createJob h
  | challengeWork => exact creates_of_challengeWork h
  | _ =>
    intro k r hn hr
    cases Step.creates hs hn hr

/-- The transition creates the record at the address. -/
def CreatedBy (P : Platform) (k : Pubkey) (r : Record) (x : Transition Ledger Action) : Prop :=
  x.source.recordAt P.programId k = none ∧ x.target.recordAt P.programId k = some r ∧
    ∃ ctx data ix, x.label = .instruction ctx data ∧ Instruction.parse data = .ok ix ∧
      Creates P x.source ctx ix r

/-- The transition is an instruction that saves the record at the address. -/
def SavedBy (P : Platform) (k : Pubkey) (r : Record) (x : Transition Ledger Action) : Prop :=
  x.target.recordAt P.programId k ≠ x.source.recordAt P.programId k ∧
    x.target.recordAt P.programId k = some r ∧ ∃ ctx data, x.label = .instruction ctx data

/-- A record that is there after a transition was there before, was there as the same object, or
is created by it. -/
theorem ChainStep.origin (h : ChainStep P x.source x.label x.target)
    (hr : x.target.recordAt P.programId k = some r) :
    x.source.recordAt P.programId k = some r ∨
      SavedBy P k r x ∧ (CreatedBy P k r x ∨
        ∃ r', x.source.recordAt P.programId k = some r' ∧ r'.SameObject r) := by
  by_cases hsame : x.target.recordAt P.programId k = x.source.recordAt P.programId k
  · exact Or.inl (hsame ▸ hr)
  · obtain ⟨L, action, L'⟩ := x
    refine Or.inr ?_
    cases h with
    | thirdParty others => exact absurd (congrFun others.recordAt_eq k) hsame
    | @instruction ctx data _ _ ev signers ok =>
      refine ⟨⟨hsame, hr, ctx, data, rfl⟩, ?_⟩
      obtain ⟨ix, hparse, hstep, -⟩ := refined_of_process signers ok
      rw [process_of_parse hparse] at ok
      have hevolves := (hstep.evolved k).resolve_left hsame
      rw [show (abs P L').records k = some r from hr] at hevolves
      cases hs : L.recordAt P.programId k with
      | none =>
        exact Or.inl ⟨hs, hr, ctx, data, ix, rfl, hparse,
          creates_of_processInstruction hstep ok k r hs hr⟩
      | some r' =>
        rw [show (abs P L).records k = some r' from hs] at hevolves
        exact Or.inr ⟨r', rfl, sameObject_of_evolves hevolves⟩

/-- A record was created as the object it is, and the address was never free since. -/
theorem created_of_run (hL : Genesis P L) (h : Run (ChainStep P) L tr L')
    (hr : L'.recordAt P.programId k = some r) :
    Since (fun x => ∃ r₀, CreatedBy P k r₀ x ∧ r₀.SameObject r)
      (fun y => y.target.recordAt P.programId k = none) tr := by
  induction tr using List.reverseRecOn generalizing L' r with
  | nil =>
    obtain rfl : L = L' := h
    rw [hL.recordAt_eq] at hr
    cases hr
  | append_singleton tr x ih =>
    obtain ⟨M, h₁, rfl, hx, rfl⟩ := Run.append_iff.mp h
    have hkept : ¬ x.target.recordAt P.programId k = none := by
      rw [hr]
      exact Option.some_ne_none r
    rw [since_snoc]
    rcases hx.origin hr with hsource | ⟨-, hcreated | ⟨r', hsource, hsame⟩⟩
    · exact Or.inr ⟨ih h₁ hsource, hkept⟩
    · exact Or.inl ⟨r, hcreated, .refl r⟩
    · refine Or.inr ⟨(ih h₁ hsource).imp ?_, hkept⟩
      rintro y ⟨r₀, hcreated, h₀⟩
      exact ⟨r₀, hcreated, h₀.trans hsame⟩

/-- A record is what an instruction saved at the address last. -/
theorem saved_of_run (hL : Genesis P L) (h : Run (ChainStep P) L tr L')
    (hr : L'.recordAt P.programId k = some r) :
    Since (SavedBy P k r)
      (fun y => y.target.recordAt P.programId k ≠ y.source.recordAt P.programId k) tr := by
  induction tr using List.reverseRecOn generalizing L' with
  | nil =>
    obtain rfl : L = L' := h
    rw [hL.recordAt_eq] at hr
    cases hr
  | append_singleton tr x ih =>
    obtain ⟨M, h₁, rfl, hx, rfl⟩ := Run.append_iff.mp h
    rw [since_snoc]
    rcases hx.origin hr with hsource | ⟨hsaved, -⟩
    · exact Or.inr ⟨ih h₁ hsource, not_not.mpr (hr.trans hsource.symm)⟩
    · exact Or.inl hsaved

theorem recordAt_of_accepted (h : Accepted P L m r) : L.recordAt P.programId m.key = some r := by
  cases r with
  | config c => exact (loadValidatedConfig_eq_ok.mp h).1
  | provider p => exact (loadValidatedProvider_eq_ok.mp h).1
  | bond b => exact (loadValidatedBond_eq_ok.mp h).1
  | job j => exact (loadValidatedJob_eq_ok.mp h).1
  | challenge c =>
    obtain ⟨job, h⟩ := h
    exact (loadValidatedChallenge_eq_ok.mp h).1

/-- Along every run, an account accepted as a kind was created as such with the parameters it
decodes to, sits at the address found for them and returns what was saved there last; the same
object is one account, and an account is one object. -/
theorem no_account_confusion (hL : Genesis P L) (h : Run (ChainStep P) L tr L') :
    (∀ m r, Accepted P L' m r →
      P.tryFindProgramAddress r.seeds P.programId = some (m.key, r.bump) ∧
        Since (fun x => ∃ r₀, CreatedBy P m.key r₀ x ∧ r₀.SameObject r)
          (fun y => y.target.recordAt P.programId m.key = none) tr ∧
        Since (SavedBy P m.key r) (fun y =>
          y.target.recordAt P.programId m.key ≠ y.source.recordAt P.programId m.key) tr) ∧
      (∀ m m' r r', Accepted P L' m r → Accepted P L' m' r' → r.SameObject r' → m.key = m'.key) ∧
      ∀ m m' r r', Accepted P L' m r → Accepted P L' m' r' → m.key = m'.key → r = r' := by
  have hfound := (Sound.of_reached (.of_run hL h)).inv.found
  refine ⟨fun m r hm => ?_, fun m m' r r' hm hm' hsame => ?_, fun m m' r r' hm hm' hkey => ?_⟩
  · have hr := recordAt_of_accepted hm
    exact ⟨hfound _ _ hr, created_of_run hL h hr, saved_of_run hL h hr⟩
  · exact hfound.eq_of_seeds (recordAt_of_accepted hm) (recordAt_of_accepted hm') hsame.seeds_eq
  · have hr := recordAt_of_accepted hm
    rw [hkey, recordAt_of_accepted hm', Option.some.injEq] at hr
    exact hr.symm

end Origins

namespace Sample

/-- The sample job is accepted, at the address found for it and as it was created. -/
theorem no_account_confusion_sample :
    Accepted platform submittedLedger (writable jobKey) (.job submittedJob) ∧
      platform.tryFindProgramAddress (jobSeedParts buyer provider 7) programId =
        some (jobKey, 255) := by
  have hrun : Run (ChainStep platform) ledger (transitions platform ledger submission)
      submittedLedger := run_of_script playable_submission
  have hjob : Accepted platform submittedLedger (writable jobKey) (.job submittedJob) :=
    loadValidatedJob_eq_ok.mpr ⟨job_at_submittedLedger, by decide +kernel⟩
  exact ⟨hjob, ((no_account_confusion genesis hrun).1 _ _ hjob).1⟩

end Sample

end AgentBond
