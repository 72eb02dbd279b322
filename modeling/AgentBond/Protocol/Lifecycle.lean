import AgentBond.Protocol.Step

/-! # The life of a job

A step moves at most one job, along the transition table and within its terms,
and each kind of instruction makes moves of one kind.
-/

namespace AgentBond

/-- The job a record is, if it is one. -/
def Record.asJob : Record → Option JobAccount
  | .job j => some j
  | _ => none

/-- The event that announces that a job is in the state. -/
def JobState.announcement : JobState → ProtocolEventKind
  | .created => .jobCreated
  | .funded => .jobFunded
  | .accepted => .jobAccepted
  | .submitted => .receiptSubmitted
  | .challenged => .jobChallenged
  | .settled => .jobSettled
  | .refunded => .jobRefunded
  | .expired => .jobExpired
  | .slashed => .jobSlashed

/-- The event of an instruction on jobs. -/
def Instruction.jobEvent : Instruction → Option ProtocolEventKind
  | .createJob _ => some .jobCreated
  | .fundJob => some .jobFunded
  | .acceptJob => some .jobAccepted
  | .submitReceipt _ => some .receiptSubmitted
  | .acceptWork => some .jobSettled
  | .challengeWork _ => some .jobChallenged
  | .resolveTimeoutSettle => some .jobSettled
  | .resolveTimeoutRefund => some .jobRefunded
  | .expireUnfunded => some .jobExpired
  | .expireUnaccepted => some .jobRefunded
  | .slashBond => some .jobSlashed
  | .closeJob => some .jobClosed
  | _ => none

namespace Protocol

open Foundation

/-- What is agreed when a job is created. -/
structure SameTerms (j j' : JobAccount) : Prop where
  buyer : j'.buyer = j.buyer
  provider : j'.provider = j.provider
  mint : j'.mint = j.mint
  tokenProgram : j'.tokenProgram = j.tokenProgram
  amount : j'.amount = j.amount
  jobNonce : j'.jobNonce = j.jobNonce
  fundDeadline : j'.fundDeadline = j.fundDeadline
  acceptDeadline : j'.acceptDeadline = j.acceptDeadline
  workDeadline : j'.workDeadline = j.workDeadline
  autoSettleDeadline : j'.autoSettleDeadline = j.autoSettleDeadline
  requestHash : j'.requestHash = j.requestHash
  mintDecimals : j'.mintDecimals = j.mintDecimals

/-- A job moves along the transition table; its receipt is written on submission. -/
structure JobNext (j j' : JobAccount) : Prop where
  transition : validateTransition j.state j'.state = .ok ()
  terms : SameTerms j j'
  digest : j'.receiptDigest = j.receiptDigest ∨ j'.state = .submitted

/-- The changes of a job account. -/
inductive JobMove : Option JobAccount → Option JobAccount → Prop
  | created {j : JobAccount} (created : j.state = .created) : JobMove none (some j)
  | moved {j j' : JobAccount} (next : JobNext j j') : JobMove (some j) (some j')
  | closed {j : JobAccount} (terminal : j.state.isTerminal = true) : JobMove (some j) none

/-- The event that announces a change of a job account. -/
def moveKind : Option JobAccount → Option JobAccount → Option ProtocolEventKind
  | none, some _ => some .jobCreated
  | some j, some j' => if j.state = j'.state then none else some j'.state.announcement
  | some _, none => some .jobClosed
  | none, none => none

def State.jobAt (s : State) (a : Pubkey) : Option JobAccount := (s.records a).bind Record.asJob

/-- The job at one address is changed as the event announces, and no other job is. -/
structure Moves (s s' : State) (kind : ProtocolEventKind) (a : Pubkey) : Prop where
  move : JobMove (s.jobAt a) (s'.jobAt a)
  kind_eq : moveKind (s.jobAt a) (s'.jobAt a) = some kind
  others : ∀ i, i ≠ a → s'.jobAt i = s.jobAt i

section Jobs

variable {P : Platform} {now : Int64} {ix : Instruction} {s u s' : State} {a i k : Pubkey}
  {r : Record} {j j' j'' : JobAccount}

theorem ne_of_validateTransition {st st' : JobState} (h : validateTransition st st' = .ok ()) :
    st ≠ st' := by
  rintro rfl
  cases st <;> cases h

@[refl] theorem SameTerms.refl (j : JobAccount) : SameTerms j j := by
  constructor <;> rfl

theorem SameTerms.symm (h : SameTerms j j') : SameTerms j' j := by
  obtain ⟨h₁, h₂, h₃, h₄, h₅, h₆, h₇, h₈, h₉, h₁₀, h₁₁, h₁₂⟩ := h
  constructor <;> apply Eq.symm <;> assumption

theorem SameTerms.trans (h : SameTerms j j') (h' : SameTerms j' j'') : SameTerms j j'' where
  buyer := h'.buyer.trans h.buyer
  provider := h'.provider.trans h.provider
  mint := h'.mint.trans h.mint
  tokenProgram := h'.tokenProgram.trans h.tokenProgram
  amount := h'.amount.trans h.amount
  jobNonce := h'.jobNonce.trans h.jobNonce
  fundDeadline := h'.fundDeadline.trans h.fundDeadline
  acceptDeadline := h'.acceptDeadline.trans h.acceptDeadline
  workDeadline := h'.workDeadline.trans h.workDeadline
  autoSettleDeadline := h'.autoSettleDeadline.trans h.autoSettleDeadline
  requestHash := h'.requestHash.trans h.requestHash
  mintDecimals := h'.mintDecimals.trans h.mintDecimals

theorem State.jobAt_eq_some : s.jobAt a = some j ↔ s.records a = some (.job j) := by
  unfold State.jobAt
  cases hr : s.records a with
  | none => simp
  | some r => cases r <;> simp [Record.asJob]

theorem State.jobAt_of_records {o : Option Record} (h : s.records a = o) :
    s.jobAt a = o.bind Record.asJob := by
  rw [State.jobAt, h]

@[simp] theorem State.jobAt_put_self : (s.put a r).jobAt a = r.asJob := by
  rw [State.jobAt, State.records_put_self, Option.bind_some]

theorem State.jobAt_put_of_ne (h : i ≠ a) : (s.put a r).jobAt i = s.jobAt i := by
  rw [State.jobAt, State.records_put_of_ne h, State.jobAt]

@[simp] theorem State.jobAt_drop_self : (s.drop a).jobAt a = none := by
  rw [State.jobAt, State.records_drop_self, Option.bind_none]

theorem State.jobAt_drop_of_ne (h : i ≠ a) : (s.drop a).jobAt i = s.jobAt i := by
  rw [State.jobAt, State.records_drop_of_ne h, State.jobAt]

theorem State.jobAt_put (hr : r.asJob = none) (ha : s.jobAt a = none) (i : Pubkey) :
    (s.put a r).jobAt i = s.jobAt i := by
  by_cases hi : i = a
  · subst hi
    rw [jobAt_put_self, hr, ha]
  · exact jobAt_put_of_ne hi

theorem State.jobAt_drop (ha : s.jobAt a = none) (i : Pubkey) : (s.drop a).jobAt i = s.jobAt i := by
  by_cases hi : i = a
  · subst hi
    rw [jobAt_drop_self, ha]
  · exact jobAt_drop_of_ne hi

theorem moveKind_self (o : Option JobAccount) : moveKind o o = none := by
  cases o with
  | none => rfl
  | some j => simp [moveKind]

/-- The address at which the jobs of two states differ is the one that moves. -/
theorem Moves.eq_of_ne {kind : ProtocolEventKind} (h : Moves s s' kind a)
    (hi : s'.jobAt i ≠ s.jobAt i) :
    i = a := by
  by_contra hne
  exact hi (h.others i hne)

theorem Moves.kind_at {kind : ProtocolEventKind} (h : Moves s s' kind a) (i : Pubkey) :
    moveKind (s.jobAt i) (s'.jobAt i) = if i = a then some kind else none := by
  by_cases hi : i = a
  · rw [if_pos hi, hi, h.kind_eq]
  · rw [if_neg hi, h.others i hi, moveKind_self]

theorem moves_create (hfree : s.records a = none) (hj : j.state = .created) :
    Moves s (s.put a (.job j)) .jobCreated a where
  move := by
    rw [State.jobAt_put_self, State.jobAt_of_records hfree]
    exact .created hj
  kind_eq := by
    rw [State.jobAt_put_self, State.jobAt_of_records hfree]
    rfl
  others := fun _ hi => State.jobAt_put_of_ne hi

theorem moves_put (hs : ∀ i, u.jobAt i = s.jobAt i) (hj : s.records a = some (.job j))
    (h : JobNext j j') : Moves s (u.put a (.job j')) j'.state.announcement a where
  move := by
    rw [State.jobAt_put_self, State.jobAt_eq_some.mpr hj]
    exact .moved h
  kind_eq := by
    have hne := ne_of_validateTransition h.transition
    rw [State.jobAt_put_self, State.jobAt_eq_some.mpr hj]
    simp [Record.asJob, moveKind, hne]
  others := by
    intro i hi
    rw [State.jobAt_put_of_ne hi, hs]

theorem moves_drop (hj : s.records a = some (.job j)) (hs : u.records = s.records)
    (hterminal : j.state.isTerminal = true) : Moves s (u.drop a) .jobClosed a where
  move := by
    rw [State.jobAt_drop_self, State.jobAt_eq_some.mpr hj]
    exact .closed hterminal
  kind_eq := by
    rw [State.jobAt_drop_self, State.jobAt_eq_some.mpr hj]
    rfl
  others := by
    intro i hi
    rw [State.jobAt_drop_of_ne hi, State.jobAt, State.jobAt, hs]

theorem jobNext_released {target : JobState} (h : validateTransition j.state target = .ok ()) :
    JobNext j (released j target) where
  transition := h
  terms := by constructor <;> rfl
  digest := Or.inl rfl

theorem Moves.drop_challenge {kind : ProtocolEventKind} {c : ChallengeAccount}
    (h : Moves s s' kind a) (hk : s.records k = some (.challenge c)) (ha : k ≠ a) :
    Moves s (s'.drop k) kind a where
  move := by
    rw [State.jobAt_drop_of_ne ha.symm]
    exact h.move
  kind_eq := by
    rw [State.jobAt_drop_of_ne ha.symm]
    exact h.kind_eq
  others := by
    intro i hi
    by_cases hik : i = k
    · subst hik
      rw [State.jobAt_drop_self, State.jobAt_of_records hk]
      rfl
    · rw [State.jobAt_drop_of_ne hik, h.others i hi]

theorem moves_settlement {x : Settlement P s}
    (h : validateTransition x.job.state .settled = .ok ()) :
    Moves s x.result .jobSettled x.jobKey := by
  have hbond : s.jobAt x.key = none := State.jobAt_of_records x.bond_at
  have hjobs : ∀ i, (x.tokens.put x.key (.bond (unlockedBy x.job x.bond))).jobAt i = s.jobAt i :=
    State.jobAt_put rfl hbond
  exact moves_put hjobs x.job_at (jobNext_released h)

/-- Every step on jobs moves one job as its event announces; the other steps move none. -/
theorem Step.moves (hs : Step P now s ix s') :
    (ix.jobEvent = none ∧ ∀ a, s'.jobAt a = s.jobAt a) ∨
      ∃ kind a, ix.jobEvent = some kind ∧ Moves s s' kind a := by
  cases hs with
  | initializeConfig _ free =>
    exact Or.inl ⟨rfl, State.jobAt_put rfl (State.jobAt_of_records free)⟩
  | setPaused config_at =>
    exact Or.inl ⟨rfl, State.jobAt_put rfl (State.jobAt_of_records config_at)⟩
  | registerProvider _ free =>
    exact Or.inl ⟨rfl, State.jobAt_put rfl (State.jobAt_of_records free)⟩
  | addExecutionKey provider_at =>
    exact Or.inl ⟨rfl, State.jobAt_put rfl (State.jobAt_of_records provider_at)⟩
  | revokeExecutionKey provider_at =>
    exact Or.inl ⟨rfl, State.jobAt_put rfl (State.jobAt_of_records provider_at)⟩
  | @depositBond _ a _ _ _ _ _ _ _ _ _ bond_at =>
    have hnone : s.jobAt a = none := by
      rcases bond_at with ⟨hb, -⟩ | ⟨free, -⟩
      · exact State.jobAt_of_records hb
      · exact State.jobAt_of_records free
    exact Or.inl ⟨rfl, State.jobAt_put (s := s.pay _ _ _) rfl hnone⟩
  | withdrawBond bond_at =>
    exact Or.inl ⟨rfl, State.jobAt_put (s := s.pay _ _ _) rfl (State.jobAt_of_records bond_at)⟩
  | createJob _ _ _ _ free => exact Or.inr ⟨_, _, rfl, moves_create free rfl⟩
  | @fundJob a _ _ j _ job_at created =>
    refine Or.inr ⟨_, a, rfl, moves_put (u := s.pay _ _ _) (fun _ => rfl) job_at ?_⟩
    exact ⟨by rw [created]; rfl, by constructor <;> rfl, Or.inl rfl⟩
  | @acceptJob _ k a _ j b _ _ job_at funded _ bond_at =>
    refine Or.inr ⟨_, a, rfl, moves_put ?_ job_at ?_⟩
    · exact State.jobAt_put rfl (State.jobAt_of_records bond_at)
    · exact ⟨by rw [funded]; rfl, by constructor <;> rfl, Or.inl rfl⟩
  | @submitReceipt _ a _ j _ _ _ job_at accepted =>
    refine Or.inr ⟨_, a, rfl, moves_put (fun _ => rfl) job_at ?_⟩
    exact ⟨by rw [accepted]; rfl, by constructor <;> rfl, Or.inr rfl⟩
  | acceptWork x submitted =>
    exact Or.inr ⟨_, _, rfl, moves_settlement (by rw [submitted]; rfl)⟩
  | @challengeWork _ a k _ _ j _ _ _ job_at submitted _ _ free =>
    refine Or.inr ⟨_, a, rfl, moves_put ?_ job_at ?_⟩
    · exact State.jobAt_put rfl (State.jobAt_of_records free)
    · exact ⟨by rw [submitted]; rfl, by constructor <;> rfl, Or.inl rfl⟩
  | settleSubmitted x submitted =>
    exact Or.inr ⟨_, _, rfl, moves_settlement (by rw [submitted]; rfl)⟩
  | @settleChallenged k c challenge_at x challenged =>
    have hdrop : ∀ i, (s.drop k).jobAt i = s.jobAt i :=
      State.jobAt_drop (State.jobAt_of_records challenge_at)
    have hbond : (s.drop k).jobAt x.key = none := State.jobAt_of_records x.bond_at
    refine Or.inr ⟨_, x.jobKey, rfl, moves_put (u := x.tokens.put x.key _) (fun i => ?_)
      (State.of_records_drop x.job_at).2 (jobNext_released (by rw [challenged]; rfl))⟩
    rw [State.jobAt_put (s := x.tokens) rfl hbond]
    exact hdrop i
  | refund refunds x due =>
    refine Or.inr ⟨.jobRefunded, x.jobKey, ?_,
      moves_put (u := x.tokens) (fun _ => rfl) x.job_at (jobNext_released ?_)⟩
    · rcases refunds with rfl | rfl <;> rfl
    · rcases due with ⟨h, -⟩ | ⟨h, -⟩ <;> rw [h] <;> rfl
  | refundWith refunds x due y =>
    have hbond : s.jobAt y.key = none := State.jobAt_of_records y.bond_at
    refine Or.inr ⟨.jobRefunded, x.jobKey, ?_,
      moves_put (u := x.tokens.put y.key _) (State.jobAt_put (s := x.tokens) rfl hbond) x.job_at
        (jobNext_released ?_)⟩
    · rcases refunds with rfl | rfl <;> rfl
    · rcases due with ⟨h, -⟩ | ⟨h, -⟩ <;> rw [h] <;> rfl
  | expireUnfunded job_at created =>
    refine Or.inr ⟨_, _, rfl, moves_put (fun _ => rfl) job_at ?_⟩
    exact ⟨by rw [created]; rfl, by constructor <;> rfl, Or.inl rfl⟩
  | @slashBond k c challenge_at x challenged =>
    have hbond : s.jobAt x.key = none := State.jobAt_of_records x.bond_at
    have hne : k ≠ x.jobKey := by
      rintro rfl
      cases challenge_at.symm.trans x.job_at
    have hmoves : Moves s x.result .jobSlashed x.jobKey :=
      moves_put (u := x.tokens.put x.key _) (State.jobAt_put (s := x.tokens) rfl hbond) x.job_at
        (jobNext_released (by rw [challenged]; rfl))
    exact Or.inr ⟨_, _, rfl, hmoves.drop_challenge challenge_at hne⟩
  | closeJob job_at terminal => exact Or.inr ⟨_, _, rfl, moves_drop job_at rfl terminal⟩
  | closeJobWith job_at terminal =>
    exact Or.inr ⟨_, _, rfl, moves_drop (u := s.removeToken _) job_at rfl terminal⟩

end Jobs

end Protocol

end AgentBond
