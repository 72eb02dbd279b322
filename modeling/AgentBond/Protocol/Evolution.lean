import AgentBond.Protocol.Step

/-! # The life of a record

What one instruction does to the record at one address. A record is created at a
free address, keeps its kind, and only a finished job or a challenge is given up.
-/

namespace AgentBond.Protocol

open Foundation

/-- The instructions that empty an escrow. -/
def pays : Instruction → Bool
  | .acceptWork | .resolveTimeoutSettle | .resolveTimeoutRefund | .expireUnaccepted
  | .slashBond => true
  | _ => false

/-- The changes of one record, by the instruction that makes them. -/
inductive Evolves (now : Int64) : Instruction → Option Record → Option Record → Prop
  | configCreated {payload : InitializeConfigPayload} {bump : UInt8} {admin : Pubkey} :
      Evolves now (.initializeConfig payload) none (some (.config (payload.config bump admin)))
  | configPaused {c : ConfigAccount} {paused : Bool} :
      Evolves now (.setPaused paused) (some (.config c)) (some (.config { c with paused }))
  | providerRegistered {bump : UInt8} {authority : Pubkey} :
      Evolves now .registerProvider none (some (.provider (.registered bump authority)))
  | keyAdded {key : Pubkey} {p p' : ProviderAccount} (added : p.addKey key = .ok p') :
      Evolves now (.addExecutionKey key) (some (.provider p)) (some (.provider p'))
  | keyRevoked {key : Pubkey} {p p' : ProviderAccount} (revoked : p.revokeKey key = .ok p') :
      Evolves now (.revokeExecutionKey key) (some (.provider p)) (some (.provider p'))
  | bondOpened {ix : Instruction} {b : ProviderBondAccount} :
      Evolves now ix none (some (.bond b))
  | bondChanged {ix : Instruction} {b : ProviderBondAccount} {deposited locked : UInt64} :
      Evolves now ix (some (.bond b)) (some (.bond { b with deposited, locked }))
  | jobCreated {payload : CreateJobPayload} {c : ConfigAccount} {bump : UInt8}
      {buyer provider : Pubkey} :
      Evolves now (.createJob payload) none (some (.job (payload.job c bump buyer provider)))
  | jobFunded {j : JobAccount} (created : j.state = .created) :
      Evolves now .fundJob (some (.job j)) (some (.job { j with state := .funded }))
  | jobAccepted {j : JobAccount} {lockedBond : UInt64} (funded : j.state = .funded) :
      Evolves now .acceptJob (some (.job j))
        (some (.job { j with lockedBond, state := .accepted }))
  | jobSubmitted {j : JobAccount} {r : AgentBondWorkReceiptV1} {receiptDigest : Pubkey}
      (accepted : j.state = .accepted) (request_eq : r.requestHash = j.requestHash) :
      Evolves now (.submitReceipt r) (some (.job j))
        (some (.job { j with receiptDigest, state := .submitted }))
  | jobChallenged {j : JobAccount} {reasonHash : Pubkey} (submitted : j.state = .submitted) :
      Evolves now (.challengeWork reasonHash) (some (.job j))
        (some (.job { j with state := .challenged }))
  | jobPaid {ix : Instruction} {j : JobAccount} {target : JobState} (pays : pays ix = true)
      (held : j.state.holdsEscrow = true) (paid : target.isPaid = true) :
      Evolves now ix (some (.job j)) (some (.job (released j target)))
  | jobExpired {j : JobAccount} (created : j.state = .created) :
      Evolves now .expireUnfunded (some (.job j)) (some (.job { j with state := .expired }))
  | jobClosed {j : JobAccount} (terminal : j.state.isTerminal = true) :
      Evolves now .closeJob (some (.job j)) none
  | challengeOpened {j : JobAccount} {c : ConfigAccount} {bump : UInt8} {job reasonHash : Pubkey}
      {deadline : Int64} (sum : checkedAddI64 now c.challengeDurationSeconds = some deadline) :
      Evolves now (.challengeWork reasonHash) none
        (some (.challenge (j.challenge bump job reasonHash deadline)))
  | challengeClosed {ix : Instruction} {c : ChallengeAccount} :
      Evolves now ix (some (.challenge c)) none

/-- The record at the address is left alone or changed by the instruction. -/
def Evolved (now : Int64) (ix : Instruction) (a : Pubkey) (s s' : State) : Prop :=
  s'.records a = s.records a ∨ Evolves now ix (s.records a) (s'.records a)

namespace Evolved

variable {P : Platform} {now : Int64} {ix : Instruction} {a k : Pubkey} {s s₁ s' : State}
  {r : Record}

theorem of_eq (h : s'.records = s.records) : Evolved now ix a s s' := Or.inl (by rw [h])

theorem put (h : a ≠ k → Evolved now ix a s s₁)
    (hr : Evolves now ix (s.records k) (some r)) : Evolved now ix a s (s₁.put k r) := by
  by_cases ha : a = k
  · subst ha
    exact Or.inr (by rwa [State.records_put_self])
  · have := h ha
    rwa [Evolved, ← State.records_put_of_ne ha] at this

theorem drop (h : a ≠ k → Evolved now ix a s s₁) (hr : Evolves now ix (s.records k) none) :
    Evolved now ix a s (s₁.drop k) := by
  by_cases ha : a = k
  · subst ha
    exact Or.inr (by rwa [State.records_drop_self])
  · have := h ha
    rwa [Evolved, ← State.records_drop_of_ne ha] at this

end Evolved

variable {P : Platform} {now : Int64} {ix : Instruction} {s s' : State}

theorem pays_of_refunds (h : ix = .resolveTimeoutRefund ∨ ix = .expireUnaccepted) :
    pays ix = true := by
  rcases h with rfl | rfl <;> rfl

theorem held_of_due {j : JobAccount} {p q : Prop}
    (h : j.state = .funded ∧ p ∨ j.state = .accepted ∧ q) :
    j.state.holdsEscrow = true := by
  rcases h with ⟨h, -⟩ | ⟨h, -⟩ <;> rw [h] <;> rfl

theorem evolved_settlement {x : Settlement P s} (hix : pays ix = true)
    (hs : x.job.state.holdsEscrow = true) (a : Pubkey) : Evolved now ix a s x.result := by
  refine .put (fun _ => .put (fun _ => .of_eq rfl) ?_) ?_
  · rw [x.bond_at]
    exact .bondChanged
  · rw [x.job_at]
    exact .jobPaid hix hs rfl

/-- Every step changes each record by one of the changes of its instruction. -/
theorem Step.evolved (hs : Step P now s ix s') (a : Pubkey) : Evolved now ix a s s' := by
  cases hs with
  | initializeConfig _ free =>
    exact .put (fun _ => .of_eq rfl) (by rw [free]; exact .configCreated)
  | setPaused config_at =>
    exact .put (fun _ => .of_eq rfl) (by rw [config_at]; exact .configPaused)
  | registerProvider _ free =>
    exact .put (fun _ => .of_eq rfl) (by rw [free]; exact .providerRegistered)
  | addExecutionKey provider_at added =>
    exact .put (fun _ => .of_eq rfl) (by rw [provider_at]; exact .keyAdded added)
  | revokeExecutionKey provider_at revoked =>
    exact .put (fun _ => .of_eq rfl) (by rw [provider_at]; exact .keyRevoked revoked)
  | depositBond _ bond_at =>
    refine .put (fun _ => .of_eq rfl) ?_
    rcases bond_at with ⟨hb, -⟩ | ⟨free, -⟩
    · rw [hb]; exact .bondChanged
    · rw [free]; exact .bondOpened
  | withdrawBond bond_at =>
    exact .put (fun _ => .of_eq rfl) (by rw [bond_at]; exact .bondChanged)
  | createJob _ _ _ _ free =>
    exact .put (fun _ => .of_eq rfl) (by rw [free]; exact .jobCreated)
  | fundJob job_at created =>
    exact .put (fun _ => .of_eq rfl) (by rw [job_at]; exact .jobFunded created)
  | acceptJob _ job_at funded _ bond_at =>
    exact .put (fun _ => .put (fun _ => .of_eq rfl) (by rw [bond_at]; exact .bondChanged))
      (by rw [job_at]; exact .jobAccepted funded)
  | submitReceipt _ job_at accepted _ _ request_eq =>
    exact .put (fun _ => .of_eq rfl) (by rw [job_at]; exact .jobSubmitted accepted request_eq)
  | acceptWork x submitted => exact evolved_settlement rfl (by rw [submitted]; rfl) a
  | challengeWork _ job_at submitted _ _ free sum =>
    exact .put (fun _ => .put (fun _ => .of_eq rfl) (by rw [free]; exact .challengeOpened sum))
      (by rw [job_at]; exact .jobChallenged submitted)
  | settleSubmitted x submitted => exact evolved_settlement rfl (by rw [submitted]; rfl) a
  | @settleChallenged k c challenge_at x challenged =>
    refine .put (fun _ => .put (fun _ => ?_) ?_) ?_
    · exact .drop (fun _ => .of_eq rfl) (by rw [challenge_at]; exact .challengeClosed)
    · rw [(State.of_records_drop x.bond_at).2]; exact .bondChanged
    · rw [(State.of_records_drop x.job_at).2]
      exact .jobPaid rfl (by rw [challenged]; rfl) rfl
  | refund refunds x due =>
    refine .put (fun _ => .of_eq rfl) ?_
    rw [x.job_at]
    exact .jobPaid (pays_of_refunds refunds) (held_of_due due) rfl
  | refundWith refunds x due y =>
    refine .put (fun _ => .put (fun _ => .of_eq rfl) ?_) ?_
    · rw [y.bond_at]; exact .bondChanged
    · rw [x.job_at]; exact .jobPaid (pays_of_refunds refunds) (held_of_due due) rfl
  | expireUnfunded job_at created =>
    exact .put (fun _ => .of_eq rfl) (by rw [job_at]; exact .jobExpired created)
  | slashBond challenge_at x challenged =>
    refine .drop (fun _ => .put (fun _ => .put (fun _ => .of_eq rfl) ?_) ?_)
      (by rw [challenge_at]; exact .challengeClosed)
    · rw [x.bond_at]; exact .bondChanged
    · rw [x.job_at]; exact .jobPaid rfl (by rw [challenged]; rfl) rfl
  | closeJob job_at terminal =>
    exact .drop (fun _ => .of_eq rfl) (by rw [job_at]; exact .jobClosed terminal)
  | closeJobWith job_at terminal =>
    exact .drop (fun _ => .of_eq rfl) (by rw [job_at]; exact .jobClosed terminal)

/-- What a job has locked is the minimum bond of the configuration. -/
def Charged (s : State) : Prop :=
  ∀ a j, s.records a = some (.job j) → j.lockedBond ≠ 0 →
    ∃ k c, s.records k = some (.config c) ∧ j.lockedBond = c.minProviderBond

theorem Step.config_kept (hs : Step P now s ix s') {k : Pubkey} {c : ConfigAccount}
    (hc : s.records k = some (.config c)) :
    ∃ paused, s'.records k = some (.config { c with paused }) := by
  rcases hs.evolved k with he | he
  · exact ⟨c.paused, he.trans hc⟩
  · generalize hr : s'.records k = r at he
    rw [hc] at he
    cases he with
    | configPaused => exact ⟨_, rfl⟩

/-- A job has locked what it had locked before, or accepts for the minimum bond. -/
theorem Step.lockedBond (hs : Step P now s ix s') {a : Pubkey} {j' : JobAccount}
    (hj' : s'.records a = some (.job j')) (hl : j'.lockedBond ≠ 0) :
    (∃ j, s.records a = some (.job j) ∧ j.lockedBond = j'.lockedBond) ∨
      ∃ k c, s.records k = some (.config c) ∧ j'.lockedBond = c.minProviderBond := by
  rcases hs.evolved a with he | he
  · exact Or.inl ⟨j', he.symm.trans hj', rfl⟩
  · rw [hj'] at he
    generalize hr : s.records a = r at he
    cases he with
    | jobCreated => exact absurd rfl hl
    | jobFunded => exact Or.inl ⟨_, rfl, rfl⟩
    | jobSubmitted => exact Or.inl ⟨_, rfl, rfl⟩
    | jobChallenged => exact Or.inl ⟨_, rfl, rfl⟩
    | jobPaid => exact absurd rfl hl
    | jobExpired => exact Or.inl ⟨_, rfl, rfl⟩
    | @jobAccepted j lockedBond funded =>
      cases hs with
      | refund refunds => rcases refunds with h | h <;> cases h
      | refundWith refunds => rcases refunds with h | h <;> cases h
      | @acceptJob configKey bondKey i c _ _ _ config_at job_at _ _ bond_at =>
        by_cases hi : a = i
        · subst hi
          rw [State.records_put_self, Option.some.injEq, Record.job.injEq] at hj'
          exact Or.inr ⟨configKey, c, config_at, (congrArg JobAccount.lockedBond hj').symm⟩
        · -- Another job than the accepted one is left alone.
          have hk : a ≠ bondKey := by
            rintro rfl
            cases hr.symm.trans bond_at
          rw [State.records_put_of_ne hi, State.records_put_of_ne hk] at hj'
          exact Or.inl ⟨_, hr.symm.trans hj', rfl⟩

theorem Charged.step (h : Charged s) (hs : Step P now s ix s') : Charged s' := by
  intro a j' hj' hl
  have hbefore : ∃ k c, s.records k = some (.config c) ∧ j'.lockedBond = c.minProviderBond := by
    rcases hs.lockedBond hj' hl with ⟨j, hj, he⟩ | haccepted
    · rw [← he] at hl ⊢
      exact h a j hj hl
    · exact haccepted
  obtain ⟨k, c, hc, he⟩ := hbefore
  obtain ⟨paused, hc'⟩ := hs.config_kept hc
  exact ⟨k, _, hc', he⟩

end AgentBond.Protocol
