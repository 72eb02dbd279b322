import AgentBond.Foundation.Sums
import AgentBond.Protocol.Records
import Mathlib.Data.Fintype.Vector
import Mathlib.Data.Set.Finite.Basic

/-! # Bond accounting

For every provider and mint, what the jobs have locked is what the bond counts
as locked: the difference, summed over all addresses, stays zero.
-/

namespace AgentBond.Protocol

open Foundation

instance : Finite Pubkey :=
  let _ : Finite UInt8 := .of_injective UInt8.toFin fun _ _ => UInt8.toFin_inj.mp
  let _ := Fintype.ofFinite UInt8
  inferInstance

/-- Every address. -/
noncomputable def addresses : Finset Pubkey := Set.finite_univ.toFinset

theorem mem_addresses (a : Pubkey) : a ∈ addresses := by simp [addresses]

/-- What a record has locked, when it is a job of the provider in the mint. -/
def jobShare (provider mint : Pubkey) : Option Record → ℕ
  | some (.job j) => if j.provider = provider ∧ j.mint = mint then j.lockedBond.toNat else 0
  | _ => 0

/-- What a record counts as locked, when it is the bond of the provider in the mint. -/
def bondShare (provider mint : Pubkey) : Option Record → ℕ
  | some (.bond b) => if b.provider = provider ∧ b.mint = mint then b.locked.toNat else 0
  | _ => 0

/-- What a record adds to the difference between the two. -/
def net (provider mint : Pubkey) (r : Option Record) : ℤ :=
  jobShare provider mint r - bondShare provider mint r

/-- The difference over all addresses. -/
noncomputable def netTotal (s : State) (provider mint : Pubkey) : ℤ :=
  ∑ a ∈ addresses, net provider mint (s.records a)

/-- Everything locked is accounted for. -/
def Balanced (s : State) : Prop := ∀ provider mint, netTotal s provider mint = 0

variable {P : Platform} {s s' : State} {now : Int64} {ix : Instruction} {a k : Pubkey}
  {r r' : Record} {provider mint : Pubkey} {j j' : JobAccount} {b b' : ProviderBondAccount}

theorem netTotal_put : netTotal (s.put a r) provider mint =
    netTotal s provider mint - net provider mint (s.records a) + net provider mint (some r) :=
  sum_update (mem_addresses a) ..

theorem netTotal_drop : netTotal (s.drop a) provider mint =
    netTotal s provider mint - net provider mint (s.records a) := by
  have h := sum_update (mem_addresses a) (net provider mint) s.records none
  rw [show net provider mint none = 0 from rfl, add_zero] at h
  exact h

theorem Balanced.put (h : Balanced s)
    (hr : ∀ provider mint, net provider mint (some r) = net provider mint (s.records a)) :
    Balanced (s.put a r) := by
  intro provider mint
  rw [netTotal_put, h, hr]
  ring

theorem Balanced.drop (h : Balanced s) (hr : ∀ provider mint, net provider mint (s.records a) = 0) :
    Balanced (s.drop a) := by
  intro provider mint
  rw [netTotal_drop, h, hr]
  ring

theorem net_job (hp : j'.provider = j.provider) (hm : j'.mint = j.mint)
    (hl : j'.lockedBond = j.lockedBond) (provider mint : Pubkey) :
    net provider mint (some (.job j')) = net provider mint (some (.job j)) := by
  simp only [net, jobShare, bondShare, hp, hm, hl]

theorem net_of_unlocked (h : j.lockedBond = 0) (provider mint : Pubkey) :
    net provider mint (some (.job j)) = 0 := by
  simp [net, jobShare, bondShare, h]

theorem Balanced.put_both (h : Balanced s) (hb : s.records k = some (.bond b))
    (hj : s.records a = some (.job j)) (hbp : b.provider = j.provider) (hbm : b.mint = j.mint)
    (hp : j'.provider = j.provider) (hm : j'.mint = j.mint) (hp' : b'.provider = b.provider)
    (hm' : b'.mint = b.mint)
    (hl : b'.locked.toNat + j.lockedBond.toNat = b.locked.toNat + j'.lockedBond.toNat) :
    Balanced ((s.put k (.bond b')).put a (.job j')) := by
  intro provider mint
  have hak : a ≠ k := by
    rintro rfl
    cases hj.symm.trans hb
  rw [netTotal_put, netTotal_put, State.records_put_of_ne hak, h, hb, hj]
  simp only [net, jobShare, bondShare, hp, hm, hp', hm', hbp, hbm]
  split <;> omega

theorem toNat_sub_add {x y : UInt64} (h : x ≤ y) : (y - x).toNat + x.toNat = y.toNat := by
  rw [UInt64.toNat_sub_of_le _ _ h]
  have := UInt64.le_iff_toNat_le.mp h
  omega

theorem Balanced.release (h : Balanced s) {x : Refund P s} (y : JobBond P x) (target : JobState)
    (b' : ProviderBondAccount) (hp : b'.provider = y.bond.provider) (hm : b'.mint = y.bond.mint)
    (hl : b'.locked = y.bond.locked - x.job.lockedBond) :
    Balanced ((s.put y.key (.bond b')).put x.jobKey (.job (released x.job target))) := by
  refine h.put_both y.bond_at x.job_at y.provider_eq y.mint_eq rfl rfl hp hm ?_
  rw [hl, toNat_sub_add y.locked_le]
  rfl

theorem Balanced.settlement (h : Balanced s) (x : Settlement P s) : Balanced x.result :=
  h.release x.toJobBond .settled (unlockedBy x.job x.bond) rfl rfl rfl

theorem isTerminal_unlocked {st : JobState} (h : st.isTerminal = true) : st.locksBond = false := by
  cases st <;> first | rfl | cases h

/-- Every step keeps the books balanced. -/
theorem Balanced.step (h : Balanced s) (hv : AllValid P s) (hs : Step P now s ix s') :
    Balanced s' := by
  have hpay : ∀ {src dst n}, Balanced (s.pay src dst n) := h
  cases hs with
  | initializeConfig _ free => exact h.put (by rw [free]; exact fun _ _ => rfl)
  | setPaused config_at => exact h.put (by rw [config_at]; exact fun _ _ => rfl)
  | registerProvider _ free => exact h.put (by rw [free]; exact fun _ _ => rfl)
  | addExecutionKey provider_at => exact h.put (by rw [provider_at]; exact fun _ _ => rfl)
  | revokeExecutionKey provider_at => exact h.put (by rw [provider_at]; exact fun _ _ => rfl)
  | depositBond _ bond_at =>
    refine Balanced.put hpay ?_
    rw [State.records_pay]
    rcases bond_at with ⟨hb, -⟩ | ⟨free, bump, -, hb⟩
    · rw [hb]; exact fun _ _ => rfl
    · rw [free, hb]
      simp [net, jobShare, bondShare, ConfigAccount.emptyBond]
  | withdrawBond bond_at =>
    refine Balanced.put hpay ?_
    rw [State.records_pay, bond_at]
    exact fun _ _ => rfl
  | createJob _ _ _ _ free =>
    refine h.put ?_
    rw [free]
    exact net_of_unlocked rfl
  | fundJob job_at =>
    refine Balanced.put hpay ?_
    rw [State.records_pay, job_at]
    exact net_job rfl rfl rfl
  | acceptJob _ job_at funded _ bond_at provider_eq mint_eq sum =>
    refine h.put_both bond_at job_at provider_eq mint_eq rfl rfl rfl rfl ?_
    rw [hv.unlocked job_at (by rw [funded]; rfl), toNat_of_checkedAdd sum]
    rfl
  | submitReceipt _ job_at =>
    refine h.put ?_
    rw [job_at]
    exact net_job rfl rfl rfl
  | acceptWork x => exact h.settlement x
  | @challengeWork _ a k _ _ _ _ _ _ job_at submitted _ _ free =>
    have hak : a ≠ k := fun he => by
      rw [he] at job_at
      cases job_at.symm.trans free
    refine Balanced.put (h.put (by rw [free]; exact fun _ _ => rfl)) ?_
    rw [State.records_put_of_ne hak, job_at]
    exact net_job rfl rfl rfl
  | settleSubmitted x => exact h.settlement x
  | settleChallenged challenge_at x =>
    exact (h.drop (by rw [challenge_at]; exact fun _ _ => rfl)).settlement x
  | refund _ x _ unlocked =>
    refine Balanced.put (s := x.tokens) h ?_
    rw [show x.tokens.records x.jobKey = some (.job x.job) from x.job_at]
    exact net_job rfl rfl unlocked.symm
  | refundWith _ x _ y => exact h.release y .refunded (unlockedBy x.job y.bond) rfl rfl rfl
  | expireUnfunded job_at =>
    refine h.put ?_
    rw [job_at]
    exact net_job rfl rfl rfl
  | @slashBond k c challenge_at x =>
    have hx : Balanced x.result :=
      h.release x.toJobBond .slashed (slashedBy x.job x.bond) rfl rfl rfl
    have hjk : k ≠ x.jobKey := fun he => by
      rw [he] at challenge_at
      cases challenge_at.symm.trans x.job_at
    have hbk : k ≠ x.key := fun he => by
      rw [he] at challenge_at
      cases challenge_at.symm.trans x.bond_at
    have hk : x.result.records k = some (.challenge c) := by
      rw [Slashing.result, State.records_put_of_ne hjk, State.records_put_of_ne hbk]
      exact challenge_at
    exact hx.drop (by rw [hk]; exact fun _ _ => rfl)
  | closeJob job_at terminal =>
    refine h.drop ?_
    rw [job_at]
    exact net_of_unlocked (hv.unlocked job_at (isTerminal_unlocked terminal))
  | closeJobWith job_at terminal =>
    refine Balanced.drop (s := s.removeToken _) h ?_
    rw [State.records_removeToken, job_at]
    exact net_of_unlocked (hv.unlocked job_at (isTerminal_unlocked terminal))

/-- A bond counts as locked what the jobs of its provider and mint have locked. -/
theorem Balanced.locked_eq (h : Balanced s) (hf : Found P s) (hb : s.records k = some (.bond b)) :
    b.locked.toNat = ∑ a ∈ addresses, jobShare b.provider b.mint (s.records a) := by
  have hother : ∀ a, a ≠ k → (bondShare b.provider b.mint (s.records a) : ℤ) = 0 := by
    intro a ha
    cases hr : s.records a with
    | none => rfl
    | some r =>
      cases r with
      | bond b' =>
        -- Another bond of the provider in the mint would sit at the same address.
        have hne : ¬ (b'.provider = b.provider ∧ b'.mint = b.mint) := fun ⟨hp, hm⟩ =>
          ha (hf.eq_of_seeds hr hb (by rw [Record.seeds, Record.seeds, hp, hm]))
        simp [bondShare, hne]
      | _ => rfl
  have hbonds := sum_eq_of_unique (mem_addresses k)
    (fun a => (bondShare b.provider b.mint (s.records a) : ℤ)) hother
  have hnet := h b.provider b.mint
  simp only [netTotal, net, Finset.sum_sub_distrib] at hnet
  rw [hbonds, hb] at hnet
  simp only [bondShare, and_self, if_true] at hnet
  exact_mod_cast (sub_eq_zero.mp hnet).symm

theorem Balanced.exists_bond (h : Balanced s) (hf : Found P s) (hj : s.records a = some (.job j))
    (hl : j.lockedBond ≠ 0) : ∃ k b, s.records k = some (.bond b) ∧ b.provider = j.provider ∧
      b.mint = j.mint ∧ j.lockedBond ≤ b.locked := by
  have hshare : jobShare j.provider j.mint (s.records a) = j.lockedBond.toNat := by
    simp [jobShare, hj]
  have hbond : ∃ k b, s.records k = some (.bond b) ∧ b.provider = j.provider ∧
      b.mint = j.mint := by
    by_contra hnone
    have hzero : ∀ k, (bondShare j.provider j.mint (s.records k) : ℤ) = 0 := by
      intro k
      cases hr : s.records k with
      | none => rfl
      | some r =>
        cases r with
        | bond b =>
          have hne : ¬ (b.provider = j.provider ∧ b.mint = j.mint) := fun ⟨hp, hm⟩ =>
            hnone ⟨k, b, hr, hp, hm⟩
          simp [bondShare, hne]
        | _ => rfl
    have hnet := h j.provider j.mint
    simp only [netTotal, net, hzero, sub_zero] at hnet
    have hsum : ∑ k ∈ addresses, jobShare j.provider j.mint (s.records k) = 0 := by
      exact_mod_cast hnet
    have hle := Finset.single_le_sum (fun k _ => Nat.zero_le _) (mem_addresses a)
      (f := fun k => jobShare j.provider j.mint (s.records k))
    rw [hsum, hshare] at hle
    exact hl (UInt64.toNat_inj.mp (Nat.le_zero.mp hle))
  obtain ⟨k, b, hb, hp, hm⟩ := hbond
  refine ⟨k, b, hb, hp, hm, UInt64.le_iff_toNat_le.mpr ?_⟩
  rw [h.locked_eq hf hb, hp, hm, ← hshare]
  exact Finset.single_le_sum (f := fun k => jobShare j.provider j.mint (s.records k))
    (fun k _ => Nat.zero_le _) (mem_addresses a)

end AgentBond.Protocol
