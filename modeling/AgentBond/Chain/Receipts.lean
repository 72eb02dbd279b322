import AgentBond.Chain.Payouts

/-! # Receipts along runs

A receipt is accepted for the job it names while that job is accepted. It can be
accepted again only after a job with the same request was created at the same
address, which the program allows once the first one is closed.
-/

namespace AgentBond

open Foundation Protocol

/-- The receipt a successful instruction accepts. -/
def acceptedReceipt (x : Transition Ledger Action) : Option AgentBondWorkReceiptV1 :=
  match x.label with
  | .instruction _ data =>
    match Instruction.parse data with
    | .ok (.submitReceipt r) => some r
    | _ => none
  | .thirdParty => none

/-- The messages of the accepted receipts, in the order of the run. -/
def acceptedMessages (tr : List (Transition Ledger Action)) : List (List UInt8) :=
  (tr.filterMap acceptedReceipt).map AgentBondWorkReceiptV1.bytes

/-- The transition is no `CreateJob` that gives the address of one of the receipts its request
again. -/
def FreshRequest (seen : List AgentBondWorkReceiptV1) (x : Transition Ledger Action) : Prop :=
  match x.label with
  | .instruction ctx data =>
    match Instruction.parse data with
    | .ok (.createJob payload) => ∀ r ∈ seen, ctx.accounts[3]?.map (·.key) = some r.job →
        r.requestHash ≠ payload.requestHash
    | _ => True
  | .thirdParty => True

instance (seen : List AgentBondWorkReceiptV1) (x : Transition Ledger Action) :
    Decidable (FreshRequest seen x) := by
  unfold FreshRequest
  split
  · split <;> infer_instance
  · infer_instance

/-- No job of the run is created with the request of a receipt that its address has accepted. -/
def FreshRequests (seen : List AgentBondWorkReceiptV1) : List (Transition Ledger Action) → Prop
  | [] => True
  | x :: tr => FreshRequest seen x ∧ FreshRequests (seen ++ (acceptedReceipt x).toList) tr

instance decidableFreshRequests : ∀ (seen : List AgentBondWorkReceiptV1)
    (tr : List (Transition Ledger Action)), Decidable (FreshRequests seen tr)
  | _, [] => inferInstanceAs (Decidable True)
  | seen, x :: tr =>
    let _ := decidableFreshRequests (seen ++ (acceptedReceipt x).toList) tr
    inferInstanceAs (Decidable (_ ∧ FreshRequests _ tr))

section Replay

variable {P : Platform} {L L' : Ledger} {a : Pubkey} {action : Action}
  {x y : Transition Ledger Action} {tr : List (Transition Ledger Action)}
  {r : AgentBondWorkReceiptV1}

theorem acceptedReceipt_eq_some : acceptedReceipt x = some r ↔
    ∃ ctx data, x.label = .instruction ctx data ∧
      Instruction.parse data = .ok (.submitReceipt r) := by
  unfold acceptedReceipt
  split
  · rename_i ctx data hx
    rw [hx]
    split
    · rename_i r' hr
      simp [hr]
    · rename_i hne
      simp only [reduceCtorEq, false_iff]
      rintro ⟨ctx', data', he, hparse⟩
      cases he
      exact hne r hparse
  · rename_i hx
    simp [hx]

/-- A job that is still to accept the receipt. -/
def Awaits (P : Platform) (r : AgentBondWorkReceiptV1) (L : Ledger) : Prop :=
  ∃ j, L.recordAt P.programId r.job = some (.job j) ∧ j.requestHash = r.requestHash ∧
    (j.state = .created ∨ j.state = .funded ∨ j.state = .accepted)

/-- A receipt is accepted by a job that awaits it and no longer does. -/
theorem ChainStep.accepts (hs : ChainStep P x.source x.label x.target)
    (hx : acceptedReceipt x = some r) : Awaits P r x.source ∧ ¬ Awaits P r x.target := by
  obtain ⟨ctx, data, hlabel, hparse⟩ := acceptedReceipt_eq_some.mp hx
  rw [hlabel] at hs
  cases hs with
  | instruction signers ok =>
    obtain ⟨ix, hparse', hstep, -⟩ := refined_of_process signers ok
    obtain rfl : Instruction.submitReceipt r = ix := Except.ok.inj (hparse.symm.trans hparse')
    generalize hs' : abs P x.target = s' at hstep
    cases hstep with
    | submitReceipt _ job_at accepted _ job_eq request_eq =>
      subst job_eq
      refine ⟨⟨_, job_at, request_eq.symm, Or.inr (Or.inr accepted)⟩, ?_⟩
      rintro ⟨j', hj', -, hstate⟩
      rw [← records_abs, hs', State.records_put_self, Option.some.injEq, Record.job.injEq] at hj'
      subst hj'
      rcases hstate with h | h | h <;> cases h
    | refund refunds => rcases refunds with h | h <;> cases h
    | refundWith refunds => rcases refunds with h | h <;> cases h

/-- Only the creation of a job with its request makes an address await a receipt. -/
theorem not_freshRequest_of_enter {seen : List AgentBondWorkReceiptV1} (hr : r ∈ seen)
    (hs : ChainStep P x.source x.label x.target) (hsource : ¬ Awaits P r x.source)
    (htarget : Awaits P r x.target) : ¬ FreshRequest seen x := by
  obtain ⟨j', hj', hrequest, hstate⟩ := htarget
  have hchanged : x.target.recordAt P.programId r.job ≠ x.source.recordAt P.programId r.job :=
    fun he => hsource ⟨j', he ▸ hj', hrequest, hstate⟩
  obtain ⟨ctx, data, ix, hlabel, hparse, he⟩ := (hs.evolved r.job).resolve_left hchanged
  rw [hj'] at he
  generalize hrec : x.source.recordAt P.programId r.job = o at he
  cases he with
  | jobCreated =>
    rw [hlabel] at hs
    cases hs with
    | instruction signers ok =>
      rw [process_of_parse hparse] at ok
      obtain ⟨-, m, hm, hother⟩ := refined_of_createJob signers ok
      have hkey : m.key = r.job := by
        by_contra hne
        exact hchanged (hother r.job (Ne.symm hne))
      simp only [FreshRequest, hlabel, hparse]
      intro hfresh
      exact hfresh r hr (by rw [hm, Option.map_some, hkey]) hrequest.symm
  | jobFunded created => exact absurd ⟨_, hrec, hrequest, Or.inl created⟩ hsource
  | jobAccepted funded => exact absurd ⟨_, hrec, hrequest, Or.inr (Or.inl funded)⟩ hsource
  | jobSubmitted => rcases hstate with h | h | h <;> cases h
  | jobChallenged => rcases hstate with h | h | h <;> cases h
  | @jobPaid _ _ target _ _ paid =>
    simp only [released] at hstate
    rcases hstate with h | h | h <;> rw [h] at paid <;> cases paid
  | jobExpired => rcases hstate with h | h | h <;> cases h

theorem FreshRequests.of_split {seen : List AgentBondWorkReceiptV1}
    {tr₁ tr₂ : List (Transition Ledger Action)} (h : FreshRequests seen (tr₁ ++ x :: tr₂)) :
    FreshRequest (seen ++ tr₁.filterMap acceptedReceipt) x := by
  induction tr₁ generalizing seen with
  | nil => simpa using h.1
  | cons y tr₁ ih =>
    have := ih h.2
    rw [List.append_assoc] at this
    cases hy : acceptedReceipt y <;> simpa [hy] using this

theorem acceptedReceipt_ne {tr₁ tr₂ tr₃ : List (Transition Ledger Action)}
    (h : Run (ChainStep P) L (tr₁ ++ x :: (tr₂ ++ y :: tr₃)) L')
    (hf : FreshRequests [] (tr₁ ++ x :: (tr₂ ++ y :: tr₃))) (hx : acceptedReceipt x = some r) :
    acceptedReceipt y ≠ some r := by
  intro hy
  obtain ⟨-, hstepx, hrest⟩ := h.split
  obtain ⟨hbetween, hstepy, -⟩ := hrest.split
  -- The job stops awaiting the receipt at the first submission and awaits it at the second.
  obtain ⟨z, hz, hsource, htarget⟩ :=
    hbetween.exists_enter (ChainStep.accepts hstepx hx).2 (ChainStep.accepts hstepy hy).1
  have hstepz := (hbetween.step_of_mem (I := fun _ => True) (fun _ _ _ _ _ => trivial) trivial hz).2
  obtain ⟨l₁, l₂, rfl⟩ := List.append_of_mem hz
  have hsplit : tr₁ ++ x :: (l₁ ++ z :: l₂ ++ y :: tr₃) =
      (tr₁ ++ x :: l₁) ++ z :: (l₂ ++ y :: tr₃) := by simp
  rw [hsplit] at hf
  refine not_freshRequest_of_enter ?_ hstepz hsource htarget hf.of_split
  refine List.mem_append_right _ (List.mem_filterMap.mpr ⟨x, ?_, hx⟩)
  simp

theorem nodup_filterMap_of_split {α β : Type} {f : α → Option β} {l : List α}
    (h : ∀ l₁ x l₂ y l₃, l = l₁ ++ x :: (l₂ ++ y :: l₃) → ∀ b, f x = some b → f y ≠ some b) :
    (l.filterMap f).Nodup := by
  induction l with
  | nil => exact List.nodup_nil
  | cons x l ih =>
    have htail : (l.filterMap f).Nodup :=
      ih fun l₁ x' l₂ y l₃ he => h (x :: l₁) x' l₂ y l₃ (by rw [he, List.cons_append])
    cases hx : f x with
    | none => rwa [List.filterMap_cons_none hx]
    | some b =>
      rw [List.filterMap_cons_some hx]
      refine List.nodup_cons.mpr ⟨fun hb => ?_, htail⟩
      obtain ⟨y, hy, hfy⟩ := List.mem_filterMap.mp hb
      obtain ⟨l₂, l₃, rfl⟩ := List.append_of_mem hy
      exact h [] x l₂ y l₃ rfl b hx hfy

/-- In every run that creates no job with the request of a receipt its address has accepted, the
accepted messages are pairwise distinct. -/
theorem acceptedMessages_nodup (_ : Genesis P L) (h : Run (ChainStep P) L tr L')
    (hf : FreshRequests [] tr) : (acceptedMessages tr).Nodup := by
  refine List.Nodup.map AgentBondWorkReceiptV1.bytes_injective ?_
  refine nodup_filterMap_of_split fun tr₁ x tr₂ y tr₃ he r hx => ?_
  subst he
  exact acceptedReceipt_ne h hf hx

end Replay

namespace Sample

/-- The job is settled and closed, and created again on some terms. -/
def renewal (terms : CreateJobPayload) : Script :=
  submission ++ [settle, close] ++ engage 70 terms

end Sample

/-- The buyer of the sample asks for other work the second time. -/
theorem acceptedMessages_nodup_sample : (acceptedMessages (transitions Sample.platform
    Sample.ledger (Sample.renewal { Sample.terms with requestHash := Sample.key 70 }))).Nodup :=
  acceptedMessages_nodup Sample.genesis (Sample.run_of_script (by decide +kernel))
    (by decide +kernel)

/-- The buyer of the sample asks for the same work again, and the receipt of the first job is
accepted for the second. -/
theorem receipt_accepted_twice : Genesis Sample.platform Sample.ledger ∧
    Run (ChainStep Sample.platform) Sample.ledger
      (transitions Sample.platform Sample.ledger
        (Sample.renewal Sample.terms ++ [Sample.submit 80]))
      (play Sample.platform Sample.ledger (Sample.renewal Sample.terms ++ [Sample.submit 80])) ∧
    ¬ (acceptedMessages (transitions Sample.platform Sample.ledger
      (Sample.renewal Sample.terms ++ [Sample.submit 80]))).Nodup := by
  refine ⟨Sample.genesis, Sample.run_of_script (by decide +kernel), fun hnodup => ?_⟩
  have htwice : acceptedMessages (transitions Sample.platform Sample.ledger
      (Sample.renewal Sample.terms ++ [Sample.submit 80])) =
        [Sample.receipt.bytes, Sample.receipt.bytes] := by decide +kernel
  rw [htwice] at hnodup
  exact absurd List.mem_cons_self (List.nodup_cons.mp hnodup).1

end AgentBond
