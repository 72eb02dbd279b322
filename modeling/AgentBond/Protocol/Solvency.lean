import AgentBond.Protocol.Records

/-! # Solvency

Every record is backed by the associated token account of its address: a job
that holds its escrow by the principal, a bond by its deposit. Payments break
this for the addresses they take from until the records there are written.
-/

namespace AgentBond

open Foundation

/-- The amount the token account of a record's address must hold. -/
def Record.owed : Record → ℕ
  | .job j => if j.state.holdsEscrow then j.amount.toNat else 0
  | .bond b => b.deposited.toNat
  | _ => 0

/-- The mint in which a record is owed. -/
def Record.mint : Record → Pubkey
  | .job j => j.mint
  | .bond b => b.mint
  | _ => zeroKey

namespace Protocol

variable {P : Platform} {s s' : State} {now : Int64} {ix : Instruction} {tok : Tokens}
  {a mint src dst k : Pubkey} {r : Record} {n m : ℕ} {t : TokenAccount} {E E' : Set Pubkey}

/-- The associated token account of an address secures the amount. -/
def Backed (P : Platform) (tok : Tokens) (a mint : Pubkey) (n : ℕ) : Prop :=
  n ≠ 0 → ∃ k, P.ata a mint = some k ∧ tok.Secured k mint a n

theorem Backed.secured (h : Backed P tok a mint n) (hk : P.ata a mint = some k) :
    tok.Secured k mint a n := by
  intro hn
  obtain ⟨k', hk', hs⟩ := h hn
  rw [hk, Option.some.injEq] at hk'
  exact (hk' ▸ hs) hn

theorem Backed.of_secured (hk : P.ata a mint = some k) (h : tok.Secured k mint a n) :
    Backed P tok a mint n :=
  fun _ => ⟨k, hk, h⟩

theorem Backed.pay (h : Backed P tok a mint n) (hs : tok src = some t) (ho : t.owner ≠ a) :
    Backed P (tok.move src dst m) a mint n := by
  intro hn
  obtain ⟨k, hk, hsec⟩ := h hn
  exact ⟨k, hk, hsec.move_of_ne hs ho⟩

theorem Backed.credit (h : Backed P tok a mint n) (hk : P.ata a mint = some k)
    (ht : tok k = some t) (ho : t.Ordinary mint a) (hne : k ≠ src) :
    Backed P (tok.move src k m) a mint (n + m) :=
  .of_secured hk ((h.secured hk).credit ht ho.mint_eq ho.owner_eq ho.undelegated hne)

theorem Backed.debit (h : Backed P tok a mint n) (dst : Pubkey) (m : ℕ)
    (hk : P.ata a mint = some k) :
    Backed P (tok.move k dst m) a mint (n - m) :=
  .of_secured hk (h.secured hk).debit

/-- Every record is backed, except at the given addresses. -/
def Solvent (P : Platform) (s : State) (E : Set Pubkey) : Prop :=
  ∀ a r, s.records a = some r → a ∉ E → Backed P s.tokens a r.mint r.owed

theorem Solvent.mono (h : Solvent P s E) (hE : E ⊆ E') : Solvent P s E' :=
  fun a r hr ha => h a r hr fun hin => ha (hE hin)

/-- Taking from an account can only hurt the address that owns it. -/
theorem Solvent.pay (h : Solvent P s E) (dst : Pubkey) (n : ℕ) (ht : s.tokens src = some t) :
    Solvent P (s.pay src dst n) (insert t.owner E) := by
  intro a r hr ha
  rw [Set.mem_insert_iff, not_or] at ha
  exact (h a r hr ha.2).pay ht (Ne.symm ha.1)

theorem Solvent.pay_wallet (h : Solvent P s E) (hf : Found P s) (ht : s.tokens src = some t)
    (hw : ¬ P.Pda t.owner) : Solvent P (s.pay src dst n) E := by
  intro a r hr ha
  exact (h a r hr ha).pay ht fun he => hw (he ▸ hf.pda hr)

theorem Solvent.put (h : Solvent P s E) (hr : Backed P s.tokens a r.mint r.owed) :
    Solvent P (s.put a r) (E \ {a}) := by
  intro i r' hi hE
  by_cases hia : i = a
  · subst hia
    rw [State.records_put_self, Option.some.injEq] at hi
    exact hi ▸ hr
  · rw [State.records_put_of_ne hia] at hi
    exact h i r' hi fun hin => hE ⟨hin, hia⟩

theorem Solvent.put_unowed (h : Solvent P s E) (hr : r.owed = 0) :
    Solvent P (s.put a r) (E \ {a}) :=
  h.put (by rw [hr]; exact fun hn => absurd rfl hn)

theorem Solvent.drop (h : Solvent P s E) : Solvent P (s.drop a) (E \ {a}) := by
  intro i r hi hE
  obtain ⟨hia, hi⟩ := State.of_records_drop hi
  exact h i r hi fun hin => hE ⟨hin, hia⟩

theorem Solvent.replace (h : Solvent P s E) (r' : Record) (hr : s.records a = some r)
    (ha : a ∉ E) (hm : r'.mint = r.mint) (ho : r'.owed = r.owed) : Solvent P (s.put a r') E :=
  (h.put (by rw [hm, ho]; exact h a r hr ha)).mono Set.sdiff_subset

theorem Solvent.removeToken (h : Solvent P s E) (ht : s.tokens k = some t) (h0 : t.amount = 0) :
    Solvent P (s.removeToken k) E := by
  intro a r hr ha hn
  obtain ⟨i, hi, hsec⟩ := h a r hr ha hn
  exact ⟨i, hi, hsec.remove_empty ht h0⟩

theorem owed_released {j : JobAccount} {target : JobState} (h : target.holdsEscrow = false) :
    (Record.job (released j target)).owed = 0 := by
  simp [Record.owed, released, h]

theorem Refund.ne_key {x : Refund P s} (y : JobBond P x) : x.jobKey ≠ y.key := fun he => by
  have hj := x.job_at
  rw [he] at hj
  cases y.bond_at.symm.trans hj

theorem solvent_settlement {x : Settlement P s} (h : Solvent P s ∅) : Solvent P x.result ∅ := by
  obtain ⟨t, ht, ho, -⟩ := x.escrow_holds
  have hpay := h.pay x.buyerToken (x.balance - x.job.amount.toNat) ht
  obtain ⟨m, hm⟩ := Tokens.move_some x.escrow x.buyerToken (x.balance - x.job.amount.toNat)
    x.escrow ht
  have htok : Solvent P x.tokens {x.jobKey} := by
    refine (hpay.pay x.providerToken x.job.amount.toNat hm).mono ?_
    simp [ho.owner_eq]
  have hb := htok.replace (.bond (unlockedBy x.job x.bond)) x.bond_at
    (fun he => Refund.ne_key x.toJobBond (Set.mem_singleton_iff.mp he).symm) rfl rfl
  exact (hb.put_unowed (owed_released rfl)).mono (by simp)

theorem solvent_refund {x : Refund P s} (h : Solvent P s ∅) : Solvent P x.tokens {x.jobKey} := by
  obtain ⟨t, ht, ho, -⟩ := x.escrow_holds
  refine (h.pay x.buyerToken x.balance ht).mono ?_
  simp [ho.owner_eq]

theorem solvent_slashing {x : Slashing P s} (h : Solvent P s ∅) : Solvent P x.result ∅ := by
  have hr : Solvent P (s.pay x.escrow x.buyerToken x.balance) {x.jobKey} :=
    solvent_refund (x := x.toRefund) h
  have hne := Refund.ne_key x.toJobBond
  obtain ⟨t, ht, ho, -⟩ := x.vault_holds
  have htok : Solvent P x.tokens {x.key, x.jobKey} := by
    refine (hr.pay x.buyerToken x.job.lockedBond.toNat ht).mono ?_
    rw [ho.owner_eq]
  have hbond : Backed P x.tokens.tokens x.key x.bond.mint
      (x.bond.deposited.toNat - x.job.lockedBond.toNat) := by
    refine Backed.debit ?_ _ _ (by rw [x.mint_eq]; exact x.vault_ata)
    exact hr x.key (.bond x.bond) x.bond_at (by simpa using hne.symm)
  have hb := htok.put (a := x.key) (r := .bond (slashedBy x.job x.bond)) (by
    rw [show (Record.bond (slashedBy x.job x.bond)).owed =
      x.bond.deposited.toNat - x.job.lockedBond.toNat from
        UInt64.toNat_sub_of_le _ _ x.slashed_le]
    exact hbond)
  exact (hb.put_unowed (owed_released rfl)).mono (by simp)

/-- Every step keeps the records backed. -/
theorem Solvent.step (h : Solvent P s ∅) (hf : Found P s) (hs : Step P now s ix s') :
    Solvent P s' ∅ := by
  have hput : ∀ {s : State} {a r}, Solvent P s ∅ → r.owed = 0 → Solvent P (s.put a r) ∅ :=
    fun h hr => (h.put_unowed hr).mono Set.sdiff_subset
  have hin : ∀ a : Pubkey, a ∉ (∅ : Set Pubkey) := Set.notMem_empty
  cases hs with
  | initializeConfig | setPaused | registerProvider | addExecutionKey | revokeExecutionKey =>
    exact hput h rfl
  | @depositBond _ a vault source c b amount deposited n m _ bond_at signer vault_ata vault_holds
      source_holds source_le sum =>
    obtain ⟨tv, htv, hov, -⟩ := vault_holds
    obtain ⟨ts, hts, hos, -⟩ := source_holds
    have hpda : P.Pda a := by
      rcases bond_at with ⟨hb, -⟩ | ⟨-, bump, hfind, -⟩
      · exact hf.pda hb
      · exact Platform.pda_of_find hfind
    have hne : vault ≠ source := by
      rintro rfl
      rw [htv, Option.some.injEq] at hts
      subst hts
      exact signer (hos.owner_eq ▸ hov.owner_eq ▸ hpda)
    have hold : Backed P s.tokens a b.mint b.deposited.toNat := by
      rcases bond_at with ⟨hb, -⟩ | ⟨-, bump, -, hb⟩
      · exact h a _ hb (hin a)
      · rw [hb]
        exact fun hn => absurd rfl hn
    have hpay : Solvent P (s.pay source vault amount.toNat) ∅ :=
      h.pay_wallet hf hts (by rw [hos.owner_eq]; exact signer)
    refine (hpay.put ?_).mono Set.sdiff_subset
    rw [show (Record.bond { b with deposited }).owed = b.deposited.toNat + amount.toNat from
      toNat_of_checkedAdd sum]
    exact hold.credit vault_ata htv hov hne
  | @withdrawBond a vault destination b amount deposited n m bond_at signer vault_ata vault_holds
      _ _ difference =>
    obtain ⟨tv, htv, hov, -⟩ := vault_holds
    have hold := (h a _ bond_at (hin a)).debit destination amount.toNat vault_ata
    have hpay := h.pay destination amount.toNat htv
    rw [hov.owner_eq] at hpay
    refine (hpay.put ?_).mono (by simp)
    rw [show (Record.bond { b with deposited }).owed = b.deposited.toNat - amount.toNat from
      (toNat_of_checkedSub difference).2]
    exact hold
  | createJob => exact hput h rfl
  | @fundJob a source escrow j m job_at created _ signer _ escrow_ata escrow_holds source_holds =>
    obtain ⟨te, hte, hoe, -⟩ := escrow_holds
    obtain ⟨ts, hts, hos, -⟩ := source_holds
    have hne : escrow ≠ source := by
      rintro rfl
      rw [hte, Option.some.injEq] at hts
      subst hts
      exact signer (hos.owner_eq ▸ hoe.owner_eq ▸ hf.pda job_at)
    have hnone : Backed P s.tokens a j.mint 0 := fun hn => absurd rfl hn
    have hpay : Solvent P (s.pay source escrow j.amount.toNat) ∅ :=
      h.pay_wallet hf hts (by rw [hos.owner_eq]; exact signer)
    refine (hpay.put ?_).mono Set.sdiff_subset
    have := hnone.credit (m := j.amount.toNat) escrow_ata hte hoe hne
    rwa [Nat.zero_add] at this
  | @acceptJob _ k a _ j b locked _ job_at funded _ bond_at =>
    have hak : a ≠ k := fun he => by
      rw [he] at job_at
      cases job_at.symm.trans bond_at
    have hb := h.replace (.bond { b with locked }) bond_at (hin _) rfl rfl
    refine hb.replace (r := .job j) _ ?_ (hin _) rfl ?_
    · rw [State.records_put_of_ne hak, job_at]
    · simp [Record.owed, funded, JobState.holdsEscrow]
  | submitReceipt _ job_at accepted =>
    exact h.replace _ job_at (hin _) rfl (by simp [Record.owed, accepted, JobState.holdsEscrow])
  | acceptWork x => exact solvent_settlement h
  | @challengeWork _ a k _ _ j _ _ _ job_at submitted _ _ free =>
    have hak : a ≠ k := fun he => by
      rw [he] at job_at
      cases job_at.symm.trans free
    refine Solvent.replace (r := .job j) (hput h rfl) _ ?_ (hin _) rfl ?_
    · rw [State.records_put_of_ne hak, job_at]
    · simp [Record.owed, submitted, JobState.holdsEscrow]
  | settleSubmitted x => exact solvent_settlement h
  | settleChallenged _ x => exact solvent_settlement (h.drop.mono Set.sdiff_subset)
  | refund _ x => exact ((solvent_refund h).put_unowed (owed_released rfl)).mono (by simp)
  | refundWith _ x _ y =>
    have hb := (solvent_refund (x := x) h).replace (.bond (unlockedBy x.job y.bond)) y.bond_at
      (fun he => Refund.ne_key y (Set.mem_singleton_iff.mp he).symm) rfl rfl
    exact (hb.put_unowed (owed_released rfl)).mono (by simp)
  | expireUnfunded => exact hput h rfl
  | slashBond _ x => exact (solvent_slashing h).drop.mono Set.sdiff_subset
  | closeJob => exact h.drop.mono Set.sdiff_subset
  | closeJobWith _ _ escrow_at empty =>
    exact (h.removeToken escrow_at empty).drop.mono Set.sdiff_subset

end Protocol

end AgentBond
