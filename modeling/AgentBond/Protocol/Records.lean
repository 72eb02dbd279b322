import AgentBond.Protocol.Step

/-! # Record invariants

Every record sits at the address found from its seeds and satisfies the
conditions of its kind; open challenges and challenged jobs point at each other.
-/

namespace AgentBond

open Foundation

/-- What the program guarantees of each record on its own. -/
def Record.Valid (P : Platform) : Record → Prop
  | .config c => c.minProviderBond ≠ 0 ∧ 0 < c.challengeDurationSeconds ∧
      c.allowedMint ≠ zeroKey ∧ c.tokenProgram = tokenProgramId
  | .provider p => ¬ P.Pda p.authority
  | .bond b => ¬ P.Pda b.provider ∧ b.locked ≤ b.deposited
  | .job j => ¬ P.Pda j.buyer ∧ ¬ P.Pda j.provider ∧ j.amount ≠ 0 ∧ j.mint ≠ zeroKey ∧
      j.tokenProgram = tokenProgramId ∧ (j.lockedBond ≠ 0 ↔ j.state.locksBond = true)
  | .challenge c => c.status = ChallengeAccount.statusOpen

namespace Protocol

variable {P : Platform} {s s' : State} {now : Int64} {ix : Instruction} {a : Pubkey} {r : Record}

/-- Every record sits at the address found from its seeds. -/
def Found (P : Platform) (s : State) : Prop :=
  ∀ a r, s.records a = some r → P.tryFindProgramAddress r.seeds P.programId = some (a, r.bump)

/-- Every record satisfies the conditions of its kind. -/
def AllValid (P : Platform) (s : State) : Prop :=
  ∀ a r, s.records a = some r → r.Valid P

theorem Found.pda (h : Found P s) (hr : s.records a = some r) : P.Pda a :=
  Platform.pda_of_find (h a r hr)

theorem Found.address (h : Found P s) (hr : s.records a = some r) : P.addressOf r = some a :=
  P.create_of_find (h a r hr)

/-- Records with the same seeds sit at the same address. -/
theorem Found.eq_of_seeds (h : Found P s) {a' : Pubkey} {r' : Record} (hr : s.records a = some r)
    (hr' : s.records a' = some r') (hs : r.seeds = r'.seeds) : a = a' := by
  have h₁ := h a r hr
  rw [hs, h a' r' hr'] at h₁
  exact (Prod.mk.inj (Option.some.inj h₁)).1.symm

theorem Found.create (h : Found P s)
    (hr : P.tryFindProgramAddress r.seeds P.programId = some (a, r.bump)) :
    Found P (s.put a r) := by
  intro i r' hi
  by_cases hia : i = a
  · subst hia
    rw [State.records_put_self, Option.some.injEq] at hi
    exact hi ▸ hr
  · exact h i r' (by rwa [State.records_put_of_ne hia] at hi)

theorem Found.replace (h : Found P s) {r' : Record}
    (hr : P.tryFindProgramAddress r.seeds P.programId = some (a, r.bump)) (hs : r'.seeds = r.seeds)
    (hb : r'.bump = r.bump) : Found P (s.put a r') :=
  h.create (by rw [hs, hb, hr])

theorem Found.drop (h : Found P s) : Found P (s.drop a) :=
  fun i r hi => h i r (State.of_records_drop hi).2

theorem AllValid.put (h : AllValid P s) (hr : r.Valid P) : AllValid P (s.put a r) := by
  intro i r' hi
  by_cases hia : i = a
  · subst hia
    rw [State.records_put_self, Option.some.injEq] at hi
    exact hi ▸ hr
  · exact h i r' (by rwa [State.records_put_of_ne hia] at hi)

theorem AllValid.drop (h : AllValid P s) : AllValid P (s.drop a) :=
  fun i r hi => h i r (State.of_records_drop hi).2

theorem authority_of_addKey {p p' : ProviderAccount} {key : Pubkey} (h : p.addKey key = .ok p') :
    p'.authority = p.authority ∧ p'.bump = p.bump := by
  simp only [ProviderAccount.addKey, bind_eq_ok, ensure_eq_ok, exists_const,
    Except.ok.injEq] at h
  obtain ⟨-, -, -, rfl⟩ := h
  exact ⟨rfl, rfl⟩

theorem authority_of_revokeKey {p p' : ProviderAccount} {key : Pubkey}
    (h : p.revokeKey key = .ok p') : p'.authority = p.authority ∧ p'.bump = p.bump := by
  simp only [ProviderAccount.revokeKey, bind_eq_ok, okOr_eq_ok, Except.ok.injEq] at h
  obtain ⟨i, -, rfl⟩ := h
  exact ⟨rfl, rfl⟩

/-- Every step keeps records at the addresses found from their seeds. -/
theorem Found.step (h : Found P s) (hs : Step P now s ix s') : Found P s' := by
  have hpay : ∀ {src dst n}, Found P (s.pay src dst n) := h
  cases hs with
  | initializeConfig find => exact create h find
  | setPaused config_at => exact replace h (h _ _ config_at) rfl rfl
  | registerProvider find => exact create h find
  | addExecutionKey provider_at added =>
    obtain ⟨ha, hb⟩ := authority_of_addKey added
    exact replace h (h _ _ provider_at) (congrArg providerSeedParts ha) hb
  | revokeExecutionKey provider_at revoked =>
    obtain ⟨ha, hb⟩ := authority_of_revokeKey revoked
    exact replace h (h _ _ provider_at) (congrArg providerSeedParts ha) hb
  | depositBond _ bond_at =>
    rcases bond_at with ⟨hb, -⟩ | ⟨-, bump, hfind, hb⟩
    · exact replace hpay (h _ _ hb) rfl rfl
    · rw [hb] at hfind ⊢
      exact create hpay hfind
  | withdrawBond bond_at => exact replace hpay (h _ _ bond_at) rfl rfl
  | createJob _ _ _ find => exact create h find
  | fundJob job_at => exact replace hpay (h _ _ job_at) rfl rfl
  | acceptJob _ job_at _ _ bond_at =>
    refine replace ?_ (h _ _ job_at) rfl rfl
    exact replace h (h _ _ bond_at) rfl rfl
  | submitReceipt _ job_at => exact replace h (h _ _ job_at) rfl rfl
  | acceptWork x =>
    refine replace ?_ (h _ _ x.job_at) rfl rfl
    exact replace (s := x.tokens) h (h _ _ x.bond_at) rfl rfl
  | challengeWork _ job_at _ _ find =>
    refine replace ?_ (h _ _ job_at) rfl rfl
    exact create h find
  | settleSubmitted x =>
    refine replace ?_ (h _ _ x.job_at) rfl rfl
    exact replace (s := x.tokens) h (h _ _ x.bond_at) rfl rfl
  | @settleChallenged k _ _ x =>
    have hd : Found P (s.drop k) := h.drop
    refine replace ?_ (hd _ _ x.job_at) rfl rfl
    exact replace (s := x.tokens) hd (hd _ _ x.bond_at) rfl rfl
  | refund _ x => exact replace (s := x.tokens) h (h _ _ x.job_at) rfl rfl
  | refundWith _ x _ y =>
    refine replace ?_ (h _ _ x.job_at) rfl rfl
    exact replace (s := x.tokens) h (h _ _ y.bond_at) rfl rfl
  | expireUnfunded job_at => exact replace h (h _ _ job_at) rfl rfl
  | slashBond _ x =>
    refine drop (replace ?_ (h _ _ x.job_at) rfl rfl)
    exact replace (s := x.tokens) h (h _ _ x.bond_at) rfl rfl
  | closeJob => exact h.drop
  | closeJobWith => exact drop (s := s.removeToken _) h

theorem valid_job {j j' : JobAccount} (h : Record.Valid P (.job j)) (hb : j'.buyer = j.buyer)
    (hp : j'.provider = j.provider) (ha : j'.amount = j.amount) (hm : j'.mint = j.mint)
    (ht : j'.tokenProgram = j.tokenProgram)
    (hl : j'.lockedBond ≠ 0 ↔ j'.state.locksBond = true) : Record.Valid P (.job j') := by
  obtain ⟨h₁, h₂, h₃, h₄, h₅, -⟩ := h
  exact ⟨hb ▸ h₁, hp ▸ h₂, ha ▸ h₃, hm ▸ h₄, ht ▸ h₅, hl⟩

theorem valid_released {j : JobAccount} (h : Record.Valid P (.job j)) {target : JobState}
    (ht : target.locksBond = false) : Record.Valid P (.job (released j target)) :=
  valid_job h rfl rfl rfl rfl rfl (by simp [released, ht])

theorem AllValid.locked_iff (h : AllValid P s) {j : JobAccount}
    (hj : s.records a = some (.job j)) : j.lockedBond ≠ 0 ↔ j.state.locksBond = true :=
  (h _ _ hj).2.2.2.2.2

theorem AllValid.unlocked (h : AllValid P s) {j : JobAccount} (hj : s.records a = some (.job j))
    (hs : j.state.locksBond = false) : j.lockedBond = 0 := by
  by_contra hne
  rw [(h.locked_iff hj).mp hne] at hs
  cases hs

theorem sub_le_of_le {a b c : UInt64} (h : b ≤ c) (hle : a ≤ b) : b - a ≤ c := by
  rw [UInt64.le_iff_toNat_le] at *
  rw [UInt64.toNat_sub_of_le _ _ (UInt64.le_iff_toNat_le.mpr hle)]
  omega

theorem sub_le_sub_of_le {a b c : UInt64} (h : b ≤ c) (hle : a ≤ b) : b - a ≤ c - a := by
  have hac : a.toNat ≤ c.toNat :=
    (UInt64.le_iff_toNat_le.mp hle).trans (UInt64.le_iff_toNat_le.mp h)
  rw [UInt64.le_iff_toNat_le] at *
  rw [UInt64.toNat_sub_of_le _ _ (UInt64.le_iff_toNat_le.mpr hle),
    UInt64.toNat_sub_of_le _ _ (UInt64.le_iff_toNat_le.mpr hac)]
  omega

theorem valid_settlement {x : Settlement P s} (h : AllValid P s) : AllValid P x.result := by
  have hb := h _ _ x.bond_at
  refine AllValid.put ?_ (valid_released (h _ _ x.job_at) rfl)
  exact AllValid.put (s := x.tokens) h ⟨hb.1, sub_le_of_le hb.2 x.locked_le⟩

/-- Every step keeps the records valid. -/
theorem AllValid.step (h : AllValid P s) (hs : Step P now s ix s') : AllValid P s' := by
  have hpay : ∀ {src dst n}, AllValid P (s.pay src dst n) := h
  cases hs with
  | initializeConfig _ _ token bond_pos duration_pos mint_set =>
    exact put h ⟨bond_pos, duration_pos, mint_set, token⟩
  | setPaused config_at =>
    have hc := h _ _ config_at
    exact put h hc
  | registerProvider _ _ signer => exact put h signer
  | addExecutionKey provider_at added =>
    refine put h ?_
    rw [Record.Valid, (authority_of_addKey added).1]
    exact h _ _ provider_at
  | revokeExecutionKey provider_at revoked =>
    refine put h ?_
    rw [Record.Valid, (authority_of_revokeKey revoked).1]
    exact h _ _ provider_at
  | depositBond _ _ signer _ _ _ _ _ locked_le => exact put hpay ⟨signer, locked_le⟩
  | withdrawBond _ signer _ _ _ _ _ locked_le => exact put hpay ⟨signer, locked_le⟩
  | createJob config_at token provider_at _ _ signer amount_pos =>
    refine put h ⟨signer, h _ _ provider_at, amount_pos, (h _ _ config_at).2.2.1, token, ?_⟩
    simp [CreateJobPayload.job, JobState.locksBond]
  | fundJob job_at created =>
    refine put hpay (valid_job (h _ _ job_at) rfl rfl rfl rfl rfl ?_)
    have := h.locked_iff job_at
    simp_all [JobState.locksBond]
  | acceptJob config_at job_at _ _ bond_at _ _ _ locked_le =>
    have hc := (h _ _ config_at).1
    refine put (put h ⟨(h _ _ bond_at).1, locked_le⟩)
      (valid_job (h _ _ job_at) rfl rfl rfl rfl rfl ?_)
    simp [hc, JobState.locksBond]
  | submitReceipt _ job_at accepted =>
    refine put h (valid_job (h _ _ job_at) rfl rfl rfl rfl rfl ?_)
    have := h.locked_iff job_at
    simp_all [JobState.locksBond]
  | acceptWork x => exact valid_settlement h
  | challengeWork _ job_at submitted =>
    refine put (put h rfl) (valid_job (h _ _ job_at) rfl rfl rfl rfl rfl ?_)
    have := h.locked_iff job_at
    simp_all [JobState.locksBond]
  | settleSubmitted x => exact valid_settlement h
  | settleChallenged _ x => exact valid_settlement h.drop
  | refund _ x => exact put (s := x.tokens) h (valid_released (h _ _ x.job_at) rfl)
  | refundWith _ x _ y =>
    have hb := h _ _ y.bond_at
    exact put (put (s := x.tokens) h ⟨hb.1, sub_le_of_le hb.2 y.locked_le⟩)
      (valid_released (h _ _ x.job_at) rfl)
  | expireUnfunded job_at created =>
    refine put h (valid_job (h _ _ job_at) rfl rfl rfl rfl rfl ?_)
    have := h.locked_iff job_at
    simp_all [JobState.locksBond]
  | slashBond _ x =>
    have hb := h _ _ x.bond_at
    refine drop (put ?_ (valid_released (h _ _ x.job_at) rfl))
    exact put (s := x.tokens) h ⟨hb.1, sub_le_sub_of_le hb.2 x.locked_le⟩
  | closeJob => exact h.drop
  | closeJobWith => exact drop (s := s.removeToken _) h

/-- A record that no challenge is about: anything but a challenge or a challenged job. -/
def Inert : Option Record → Prop
  | some (.job j) => j.state ≠ .challenged
  | some (.challenge _) => False
  | _ => True

/-- Open challenges and challenged jobs point at each other. -/
structure Linked (s : State) : Prop where
  challenge : ∀ {k c}, s.records k = some (.challenge c) →
    ∃ j, s.records c.job = some (.job j) ∧ j.state = .challenged ∧ j.buyer = c.buyer
  challenged : ∀ {a j}, s.records a = some (.job j) → j.state = .challenged →
    ∃ k c, s.records k = some (.challenge c) ∧ c.job = a

theorem Linked.put (h : Linked s) (ho : Inert (s.records a)) (hn : Inert (some r)) :
    Linked (s.put a r) where
  challenge := by
    intro k c hk
    have hka : k ≠ a := by
      rintro rfl
      rw [State.records_put_self, Option.some.injEq] at hk
      subst hk
      exact hn
    rw [State.records_put_of_ne hka] at hk
    obtain ⟨j, hj, hstate, hbuyer⟩ := h.challenge hk
    have hja : c.job ≠ a := by
      rintro rfl
      rw [hj] at ho
      exact ho hstate
    exact ⟨j, by rw [State.records_put_of_ne hja, hj], hstate, hbuyer⟩
  challenged := by
    intro i j hi hstate
    have hia : i ≠ a := by
      rintro rfl
      rw [State.records_put_self, Option.some.injEq] at hi
      subst hi
      exact hn hstate
    rw [State.records_put_of_ne hia] at hi
    obtain ⟨k, c, hk, hc⟩ := h.challenged hi hstate
    have hka : k ≠ a := by
      rintro rfl
      rw [hk] at ho
      exact ho
    exact ⟨k, c, by rw [State.records_put_of_ne hka, hk], hc⟩

theorem Linked.drop (h : Linked s) (ho : Inert (s.records a)) : Linked (s.drop a) where
  challenge := by
    intro k c hk
    obtain ⟨j, hj, hstate, hbuyer⟩ := h.challenge (State.of_records_drop hk).2
    have hja : c.job ≠ a := by
      rintro rfl
      rw [hj] at ho
      exact ho hstate
    exact ⟨j, by rw [State.records_drop_of_ne hja, hj], hstate, hbuyer⟩
  challenged := by
    intro i j hi hstate
    obtain ⟨k, c, hk, hc⟩ := h.challenged (State.of_records_drop hi).2 hstate
    have hka : k ≠ a := by
      rintro rfl
      rw [hk] at ho
      exact ho
    exact ⟨k, c, by rw [State.records_drop_of_ne hka, hk], hc⟩

theorem Linked.resolve (h : Linked s) (hf : Found P s) {k : Pubkey} {c : ChallengeAccount}
    {j : JobAccount} (j' : JobAccount) (hc : s.records k = some (.challenge c)) (hjob : c.job = a)
    (hj : s.records a = some (.job j)) (hj' : j'.state ≠ .challenged) :
    Linked ((s.drop k).put a (.job j')) := by
  have hak : a ≠ k := by
    rintro rfl
    cases hj.symm.trans hc
  constructor
  · intro k' c' hk'
    have hka : k' ≠ a := by
      rintro rfl
      rw [State.records_put_self] at hk'
      cases hk'
    rw [State.records_put_of_ne hka] at hk'
    obtain ⟨hne, hk'⟩ := State.of_records_drop hk'
    obtain ⟨j₁, hj₁, hstate, hbuyer⟩ := h.challenge hk'
    -- Another challenge of the same job would sit at the same address.
    have hja : c'.job ≠ a := by
      intro he
      exact hne (hf.eq_of_seeds hk' hc (by rw [Record.seeds, Record.seeds, he, hjob]))
    have hjk : c'.job ≠ k := by
      intro he
      rw [he] at hj₁
      cases hj₁.symm.trans hc
    exact ⟨j₁, by rw [State.records_put_of_ne hja, State.records_drop_of_ne hjk, hj₁], hstate,
      hbuyer⟩
  · intro i j₁ hi hstate
    have hia : i ≠ a := by
      rintro rfl
      rw [State.records_put_self, Option.some.injEq, Record.job.injEq] at hi
      subst hi
      exact hj' hstate
    rw [State.records_put_of_ne hia] at hi
    obtain ⟨-, hi⟩ := State.of_records_drop hi
    obtain ⟨k', c', hk', hc'⟩ := h.challenged hi hstate
    have hkk : k' ≠ k := by
      rintro rfl
      obtain rfl : c = c' := by
        have := hc.symm.trans hk'
        simpa using this
      exact hia (hc'.symm.trans hjob)
    have hka : k' ≠ a := by
      rintro rfl
      cases hj.symm.trans hk'
    exact ⟨k', c', by rw [State.records_put_of_ne hka, State.records_drop_of_ne hkk, hk'], hc'⟩

theorem Linked.open (h : Linked s) {k : Pubkey} {c : ChallengeAccount} {j j' : JobAccount}
    (hfree : s.records k = none) (hj : s.records a = some (.job j))
    (hj' : j'.state = .challenged) (hbuyer : j'.buyer = c.buyer) (hjob : c.job = a)
    (hopen : j.state ≠ .challenged) :
    Linked ((s.put k (.challenge c)).put a (.job j')) := by
  have hak : a ≠ k := by
    rintro rfl
    cases hj.symm.trans hfree
  constructor
  · intro k' c' hk'
    have hka : k' ≠ a := by
      rintro rfl
      rw [State.records_put_self] at hk'
      cases hk'
    rw [State.records_put_of_ne hka] at hk'
    by_cases hkk : k' = k
    · subst hkk
      rw [State.records_put_self, Option.some.injEq, Record.challenge.injEq] at hk'
      subst hk'
      exact ⟨j', by rw [hjob, State.records_put_self], hj', hbuyer⟩
    · rw [State.records_put_of_ne hkk] at hk'
      obtain ⟨j₁, hj₁, hstate, hb⟩ := h.challenge hk'
      have hja : c'.job ≠ a := by
        intro he
        rw [he, hj] at hj₁
        cases hj₁
        exact hopen hstate
      have hjk : c'.job ≠ k := by
        intro he
        rw [he] at hj₁
        cases hj₁.symm.trans hfree
      exact ⟨j₁, by rw [State.records_put_of_ne hja, State.records_put_of_ne hjk, hj₁], hstate, hb⟩
  · intro i j₁ hi hstate
    by_cases hia : i = a
    · exact ⟨k, c, by rw [State.records_put_of_ne hak.symm, State.records_put_self],
        hjob.trans hia.symm⟩
    · rw [State.records_put_of_ne hia] at hi
      have hik : i ≠ k := by
        rintro rfl
        rw [State.records_put_self] at hi
        cases hi
      rw [State.records_put_of_ne hik] at hi
      obtain ⟨k', c', hk', hc'⟩ := h.challenged hi hstate
      have hka : k' ≠ a := by
        rintro rfl
        cases hj.symm.trans hk'
      have hkk : k' ≠ k := by
        rintro rfl
        cases hk'.symm.trans hfree
      exact ⟨k', c', by rw [State.records_put_of_ne hka, State.records_put_of_ne hkk, hk'], hc'⟩

theorem Linked.congr (h : Linked s) (hr : s'.records = s.records) : Linked s' where
  challenge := fun {k c} hk => by
    rw [hr] at hk ⊢
    exact h.challenge hk
  challenged := fun {a j} hj hstate => by
    rw [hr] at hj ⊢
    exact h.challenged hj hstate

theorem inert_put {k : Pubkey} (h : Inert (s.records a)) (hr : Inert (some r)) :
    Inert ((s.put k r).records a) := by
  by_cases ha : a = k
  · subst ha; rwa [State.records_put_self]
  · rwa [State.records_put_of_ne ha]

theorem inert_job {j : JobAccount} (h : s.records a = some (.job j)) (hs : j.state ≠ .challenged) :
    Inert (s.records a) := by
  rw [h]; exact hs

theorem inert_bond {b : ProviderBondAccount} (h : s.records a = some (.bond b)) :
    Inert (s.records a) := by
  rw [h]; exact trivial

theorem inert_none (h : s.records a = none) : Inert (s.records a) := by
  rw [h]; exact trivial

theorem linked_settlement {x : Settlement P s} (h : Linked s) (hs : x.job.state = .submitted) :
    Linked x.result := by
  have hx : Linked x.tokens := h.congr rfl
  have hb : Linked (x.tokens.put x.key (.bond (unlockedBy x.job x.bond))) :=
    hx.put (inert_bond x.bond_at) trivial
  refine hb.put (inert_put (inert_job (s := x.tokens) x.job_at ?_) trivial) ?_
  · rw [hs]; decide
  · simp [Inert, released]

/-- Every step keeps open challenges and challenged jobs linked. -/
theorem Linked.step (h : Linked s) (hf : Found P s) (hs : Step P now s ix s') : Linked s' := by
  have hpay : ∀ {src dst n}, Linked (s.pay src dst n) := h.congr rfl
  cases hs with
  | initializeConfig _ free => exact h.put (inert_none free) trivial
  | setPaused config_at => exact h.put (by rw [config_at]; trivial) trivial
  | registerProvider _ free => exact h.put (inert_none free) trivial
  | addExecutionKey provider_at => exact h.put (by rw [provider_at]; trivial) trivial
  | revokeExecutionKey provider_at => exact h.put (by rw [provider_at]; trivial) trivial
  | @depositBond a source vault _ _ _ amount _ _ _ _ bond_at =>
    refine Linked.put hpay ?_ trivial
    rcases bond_at with ⟨hb, -⟩ | ⟨free, -⟩
    · exact inert_bond hb
    · exact inert_none free
  | withdrawBond bond_at => exact Linked.put hpay (inert_bond bond_at) trivial
  | createJob _ _ _ _ free =>
    exact h.put (inert_none free) (by simp [Inert, CreateJobPayload.job])
  | fundJob job_at created =>
    exact Linked.put hpay (inert_job job_at (by rw [created]; decide)) (by simp [Inert])
  | acceptJob _ job_at funded _ bond_at =>
    refine Linked.put ?_ (inert_put (inert_job job_at (by rw [funded]; decide)) trivial)
      (by simp [Inert])
    exact Linked.put h (inert_bond bond_at) trivial
  | submitReceipt _ job_at accepted =>
    exact h.put (inert_job job_at (by rw [accepted]; decide)) (by simp [Inert])
  | acceptWork x submitted => exact linked_settlement h submitted
  | challengeWork _ job_at submitted _ _ free =>
    exact h.open free job_at rfl rfl rfl (by rw [submitted]; decide)
  | settleSubmitted x submitted => exact linked_settlement h submitted
  | @settleChallenged k c challenge_at x _ challenge_job =>
    obtain ⟨hbk, hb⟩ := State.of_records_drop x.bond_at
    obtain ⟨-, hj⟩ := State.of_records_drop x.job_at
    have hne : x.jobKey ≠ x.key := fun he => by
      rw [he] at hj
      cases hb.symm.trans hj
    have hlb : Linked (s.put x.key (.bond (unlockedBy x.job x.bond))) :=
      h.put (inert_bond hb) trivial
    have hfb : Found P (s.put x.key (.bond (unlockedBy x.job x.bond))) :=
      hf.replace (hf _ _ hb) rfl rfl
    have hres := hlb.resolve hfb (released x.job .settled)
      (by rw [State.records_put_of_ne hbk.symm, challenge_at]) challenge_job
      (by rw [State.records_put_of_ne hne, hj]) (by simp [released])
    refine hres.congr ?_
    simp only [Settlement.result, State.put, State.drop]
    exact congrArg (Function.update · _ _) (Function.update_comm hbk ..).symm
  | refund _ x due =>
    refine Linked.put (s := x.tokens) (h.congr rfl) (inert_job x.job_at ?_)
      (by simp [Inert, released])
    rcases due with ⟨hs, -⟩ | ⟨hs, -⟩ <;> rw [hs] <;> decide
  | refundWith _ x due y =>
    have hb : Linked (x.tokens.put y.key (.bond (unlockedBy x.job y.bond))) :=
      Linked.put (h.congr rfl) (inert_bond y.bond_at) trivial
    refine hb.put (inert_put (inert_job (s := x.tokens) x.job_at ?_) trivial)
      (by simp [Inert, released])
    rcases due with ⟨hs, -⟩ | ⟨hs, -⟩ <;> rw [hs] <;> decide
  | expireUnfunded job_at created =>
    exact h.put (inert_job job_at (by rw [created]; decide)) (by simp [Inert])
  | @slashBond k c challenge_at x _ challenge_job =>
    have hjk : x.jobKey ≠ k := fun he => by
      have := x.job_at
      rw [he] at this
      cases challenge_at.symm.trans this
    have hbk : x.key ≠ k := fun he => by
      have := x.bond_at
      rw [he] at this
      cases challenge_at.symm.trans this
    have hne : x.jobKey ≠ x.key := fun he => by
      have := x.job_at
      rw [he] at this
      cases x.bond_at.symm.trans this
    have hlb : Linked (s.put x.key (.bond (slashedBy x.job x.bond))) :=
      h.put (inert_bond x.bond_at) trivial
    have hfb : Found P (s.put x.key (.bond (slashedBy x.job x.bond))) :=
      hf.replace (hf _ _ x.bond_at) rfl rfl
    have hres := hlb.resolve hfb (released x.job .slashed)
      (by rw [State.records_put_of_ne hbk.symm, challenge_at]) challenge_job
      (by rw [State.records_put_of_ne hne, x.job_at]) (by simp [released])
    refine hres.congr ?_
    simp only [Slashing.result, State.put, State.drop]
    exact Function.update_comm hjk ..
  | @closeJob a j job_at terminal =>
    exact h.drop (inert_job job_at fun hc => by rw [hc] at terminal; cases terminal)
  | closeJobWith job_at terminal =>
    exact Linked.drop (s := s.removeToken _) (h.congr rfl)
      (inert_job job_at fun hc => by rw [hc] at terminal; cases terminal)

/-- Every job that holds its escrow has an initialized mint with its decimals. -/
def Minted (s : State) : Prop :=
  ∀ a j, s.records a = some (.job j) → j.state.holdsEscrow = true →
    ∃ d, s.mints j.mint = some d ∧ d.isInitialized = true ∧ d.decimals = j.mintDecimals

theorem Minted.put (h : Minted s)
    (hr : ∀ j, r = .job j → j.state.holdsEscrow = true →
      ∃ d, s.mints j.mint = some d ∧ d.isInitialized = true ∧ d.decimals = j.mintDecimals) :
    Minted (s.put a r) := by
  intro i j hi hstate
  by_cases hia : i = a
  · subst hia
    rw [State.records_put_self, Option.some.injEq] at hi
    exact hr j hi hstate
  · exact h i j (by rwa [State.records_put_of_ne hia] at hi) hstate

theorem Minted.drop (h : Minted s) : Minted (s.drop a) :=
  fun i j hi => h i j (State.of_records_drop hi).2

theorem Minted.update (h : Minted s) {k : Pubkey} {j j' : JobAccount}
    (hj : s.records k = some (.job j)) (hs : j.state.holdsEscrow = true) (hm : j'.mint = j.mint)
    (hd : j'.mintDecimals = j.mintDecimals) : Minted (s.put a (.job j')) := by
  refine h.put fun j₁ he _ => ?_
  obtain rfl := Record.job.inj he
  rw [hm, hd]
  exact h k j hj hs

theorem Minted.release (h : Minted s) {j : JobAccount} {target : JobState}
    (ht : target.holdsEscrow = false) : Minted (s.put a (.job (released j target))) := by
  refine h.put fun j₁ he hs => ?_
  obtain rfl := Record.job.inj he
  rw [released, ht] at hs
  cases hs

theorem Minted.other (h : Minted s) (hr : ∀ j, r ≠ .job j) : Minted (s.put a r) :=
  h.put fun j he => absurd he (hr j)

theorem minted_settlement {x : Settlement P s} (h : Minted s) : Minted x.result :=
  Minted.release (Minted.other (s := x.tokens) h (by simp)) rfl

/-- Every step keeps the mints of the jobs that hold their escrow. -/
theorem Minted.step (h : Minted s) (hs : Step P now s ix s') : Minted s' := by
  have hpay : ∀ {src dst n}, Minted (s.pay src dst n) := h
  cases hs with
  | initializeConfig | setPaused | registerProvider | addExecutionKey | revokeExecutionKey =>
    exact h.other (by simp)
  | depositBond | withdrawBond => exact other hpay (by simp)
  | createJob =>
    refine h.put fun j he hs => ?_
    obtain rfl := Record.job.inj he
    cases hs
  | fundJob _ _ _ _ mint_at =>
    refine put hpay fun j he _ => ?_
    obtain rfl := Record.job.inj he
    exact mint_at
  | acceptJob _ job_at funded =>
    have hm := h _ _ job_at (by rw [funded]; rfl)
    refine put (h.other (by simp)) fun j he _ => ?_
    obtain rfl := Record.job.inj he
    exact hm
  | submitReceipt _ job_at accepted => exact h.update job_at (by rw [accepted]; rfl) rfl rfl
  | acceptWork x => exact minted_settlement h
  | challengeWork _ job_at submitted =>
    have hm := h _ _ job_at (by rw [submitted]; rfl)
    refine put (h.other (by simp)) fun j he _ => ?_
    obtain rfl := Record.job.inj he
    exact hm
  | settleSubmitted x => exact minted_settlement h
  | settleChallenged _ x => exact minted_settlement h.drop
  | refund _ x => exact release (s := x.tokens) h rfl
  | refundWith _ x _ y => exact release (other (s := x.tokens) h (by simp)) rfl
  | expireUnfunded =>
    refine h.put fun j he hs => ?_
    obtain rfl := Record.job.inj he
    cases hs
  | slashBond _ x => exact (release (other (s := x.tokens) h (by simp)) rfl).drop
  | closeJob => exact h.drop
  | closeJobWith => exact drop (s := s.removeToken _) h

end Protocol

end AgentBond
