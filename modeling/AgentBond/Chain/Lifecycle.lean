import AgentBond.Chain.Recourse
import AgentBond.Protocol.Lifecycle
import Mathlib.Data.List.Chain

/-! # The life of a job along runs

From its creation to its closing, a job account walks through the transition
table and keeps its terms. It is challenged exactly while its challenge exists.
-/

namespace AgentBond

open Foundation Protocol

variable {P : Platform} {L L' : Ledger} {a k : Pubkey} {bump : UInt8} {j j' : JobAccount}
  {jobs : List JobAccount} {action : Action} {x : Transition Ledger Action}
  {tr : List (Transition Ledger Action)}

/-- A job account along its life, from its creation on. -/
structure Life (jobs : List JobAccount) : Prop where
  created : ∃ j, jobs.head? = some j ∧ j.state = .created
  path : jobs.IsChain fun j j' =>
    j'.state = j.state ∨ validateTransition j.state j'.state = .ok ()
  final : jobs.IsChain fun j j' => j.state.isTerminal = true → j'.state = j.state
  terms : ∀ j ∈ jobs, ∀ j' ∈ jobs, SameTerms j j'
  digest : jobs.IsChain fun j j' =>
    j'.receiptDigest = j.receiptDigest ∨ j.state ≠ .submitted ∧ j'.state = .submitted

theorem sameTerms_of_isChain (h : (j :: jobs).IsChain fun j j' => j' = j ∨ JobNext j j') :
    ∀ j' ∈ j :: jobs, SameTerms j j' := by
  induction jobs generalizing j with
  | nil =>
    intro j' hj'
    rw [List.mem_singleton.mp hj']
  | cons i jobs ih =>
    obtain ⟨hji, hrest⟩ := List.isChain_cons_cons.mp h
    intro j' hj'
    rcases List.mem_cons.mp hj' with rfl | hmem
    · rfl
    · have hi := ih hrest j' hmem
      rcases hji with rfl | hnext
      · exact hi
      · exact hnext.terms.trans hi

theorem Life.of_isChain (hj : j.state = .created)
    (h : (j :: jobs).IsChain fun j j' => j' = j ∨ JobNext j j') : Life (j :: jobs) where
  created := ⟨j, rfl, hj⟩
  path := by
    refine h.imp ?_
    rintro i i' (rfl | hnext)
    · exact Or.inl rfl
    · exact Or.inr hnext.transition
  final := by
    refine h.imp ?_
    rintro i i' (rfl | hnext) hterminal
    · rfl
    · rw [not_isTerminal_of_validateTransition hnext.transition] at hterminal
      cases hterminal
  terms := by
    intro i hi i' hi'
    exact (sameTerms_of_isChain h i hi).symm.trans (sameTerms_of_isChain h i' hi')
  digest := by
    refine h.imp ?_
    rintro i i' (rfl | hnext)
    · exact Or.inl rfl
    · rcases hnext.digest with hsame | hsubmitted
      · exact Or.inl hsame
      · refine Or.inr ⟨fun hi => ?_, hsubmitted⟩
        exact ne_of_validateTransition hnext.transition (hi.trans hsubmitted.symm)

theorem jobAt_of_recordAt (h : L.recordAt P.programId a = some (.job j)) :
    (abs P L).jobAt a = some j :=
  State.jobAt_eq_some.mpr h

/-- The job at an address is left alone or moved by an instruction. -/
theorem ChainStep.jobMove (hs : ChainStep P L action L') (a : Pubkey) :
    (abs P L').jobAt a = (abs P L).jobAt a ∨ JobMove ((abs P L).jobAt a) ((abs P L').jobAt a) := by
  cases hs with
  | instruction signers ok =>
    obtain ⟨ix, -, hstep, -⟩ := refined_of_process signers ok
    rcases hstep.moves with ⟨-, hsame⟩ | ⟨kind, i, -, hmoves⟩
    · exact Or.inl (hsame a)
    · by_cases hi : a = i
      · subst hi
        exact Or.inr hmoves.move
      · exact Or.inl (hmoves.others a hi)
  | thirdParty others =>
    refine Or.inl ?_
    rw [State.jobAt, State.jobAt, others.outside.records]

/-- The job accounts that the transitions leave at the address. -/
def jobsAt (P : Platform) (a : Pubkey) (tr : List (Transition Ledger Action)) : List JobAccount :=
  tr.filterMap fun y => (abs P y.target).jobAt a

theorem jobsAt_cons (h : (abs P x.target).jobAt a = some j) :
    jobsAt P a (x :: tr) = j :: jobsAt P a tr :=
  List.filterMap_cons_some (f := fun y : Transition Ledger Action => (abs P y.target).jobAt a) h

/-- The transition creates a job at the address, which stays there along the rest. -/
structure Incarnation (P : Platform) (a : Pubkey) (x : Transition Ledger Action)
    (tr : List (Transition Ledger Action)) : Prop where
  absent : (abs P x.source).jobAt a = none
  present : ∀ y ∈ x :: tr, ((abs P y.target).jobAt a).isSome = true

theorem isChain_jobsAt (h : Run (ChainStep P) L tr L') (hj : (abs P L).jobAt a = some j)
    (hpresent : ∀ y ∈ tr, ((abs P y.target).jobAt a).isSome = true) :
    (j :: jobsAt P a tr).IsChain fun j j' => j' = j ∨ JobNext j j' := by
  induction tr generalizing L j with
  | nil => exact List.isChain_singleton _
  | cons x tr ih =>
    obtain ⟨rfl, hx, hrest⟩ := h
    obtain ⟨j', hj'⟩ := Option.isSome_iff_exists.mp (hpresent x List.mem_cons_self)
    have htail := ih hrest hj' fun y hy => hpresent y (List.mem_cons_of_mem _ hy)
    rw [jobsAt_cons hj', List.isChain_cons_cons]
    refine ⟨?_, htail⟩
    rcases hx.jobMove a with hsame | hmove
    · rw [hj, hj', Option.some.injEq] at hsame
      exact Or.inl hsame
    · rw [hj, hj'] at hmove
      cases hmove with
      | moved next => exact Or.inr next

theorem Incarnation.life (h : Incarnation P a x tr) (hx : ChainStep P x.source x.label x.target)
    (hrun : Run (ChainStep P) x.target tr L') : Life (jobsAt P a (x :: tr)) := by
  obtain ⟨j, hj⟩ := Option.isSome_iff_exists.mp (h.present x List.mem_cons_self)
  have hchain := isChain_jobsAt hrun hj fun y hy => h.present y (List.mem_cons_of_mem _ hy)
  rw [jobsAt_cons hj]
  refine Life.of_isChain ?_ hchain
  rcases hx.jobMove a with hsame | hmove
  · rw [hj, h.absent] at hsame
    cases hsame
  · rw [hj, h.absent] at hmove
    cases hmove with
    | created created => exact created

/-- The address of a challenge belongs to the program exactly while the job is challenged. -/
theorem Sound.challenged_iff (hP : P.CollisionFree (DerivedIn P L)) (h : Sound P L)
    (hj : (abs P L).jobAt a = some j)
    (hfind : P.tryFindProgramAddress (challengeSeedParts a) P.programId = some (k, bump)) :
    j.state = .challenged ↔ (L.account k).owner = P.programId := by
  have hrecord := State.jobAt_eq_some.mp hj
  constructor
  · intro hstate
    obtain ⟨k', c, hk', rfl⟩ := h.inv.linked.challenged hrecord hstate
    have hfound := h.inv.found k' _ hk'
    rw [Record.seeds, hfind, Option.some.injEq, Prod.mk.injEq] at hfound
    obtain ⟨rfl, -⟩ := hfound
    exact Ledger.owner_of_recordAt hk'
  · intro howner
    rcases h.tidy k (Platform.pda_of_find hfind) (Set.notMem_empty k) with hunused | ⟨r, hr⟩
    · exact absurd (howner.symm.trans hunused.1) P.programId_ne_system
    · obtain ⟨c, rfl, rfl⟩ := record_at_challengeAddress hP h hrecord hfind hr
      obtain ⟨j', hj', hstate, -⟩ := h.inv.linked.challenge hr
      rw [hrecord, Option.some.injEq, Record.job.injEq] at hj'
      rw [hj', hstate]

theorem Sound.challenge_at (h : Sound P L) (hj : (abs P L).jobAt a = some j)
    (hstate : j.state = .challenged)
    (hfind : P.tryFindProgramAddress (challengeSeedParts a) P.programId = some (k, bump)) :
    ∃ c, L.recordAt P.programId k = some (.challenge c) ∧
      c.status = ChallengeAccount.statusOpen ∧ c.job = a ∧ c.buyer = j.buyer := by
  have hrecord := State.jobAt_eq_some.mp hj
  obtain ⟨k', c, hk', rfl⟩ := h.inv.linked.challenged hrecord hstate
  have hfound := h.inv.found k' _ hk'
  rw [Record.seeds, hfind, Option.some.injEq, Prod.mk.injEq] at hfound
  obtain ⟨rfl, -⟩ := hfound
  obtain ⟨j', hj', -, hbuyer⟩ := h.inv.linked.challenge hk'
  rw [hrecord, Option.some.injEq, Record.job.injEq] at hj'
  subst hj'
  exact ⟨c, hk', h.inv.valid _ _ hk', rfl, hbuyer.symm⟩

/-- Along every run each incarnation of a job lives by the transition table and keeps its terms,
and the job is challenged exactly while its challenge, open and its own, is with the program. -/
theorem jobs_live (hP : P.CollisionFree (DerivedIn P L')) (hL : Genesis P L)
    (h : Run (ChainStep P) L tr L') :
    (∀ a tr₁ x tr₂ tr₃, tr = tr₁ ++ x :: (tr₂ ++ tr₃) → Incarnation P a x tr₂ →
      Life (jobsAt P a (x :: tr₂))) ∧
      ∀ a j k bump, (abs P L').jobAt a = some j →
        P.tryFindProgramAddress (challengeSeedParts a) P.programId = some (k, bump) →
          (j.state = .challenged ↔ (L'.account k).owner = P.programId) ∧
            (j.state = .challenged → ∃ c, L'.recordAt P.programId k = some (.challenge c) ∧
              c.status = ChallengeAccount.statusOpen ∧ c.job = a ∧ c.buyer = j.buyer) := by
  constructor
  · rintro a tr₁ x tr₂ tr₃ rfl hincarnation
    obtain ⟨-, hx, hrest⟩ := h.split
    obtain ⟨M, hrun, -⟩ := Run.append_iff.mp hrest
    exact hincarnation.life hx hrun
  · intro a j k bump hj hfind
    have hsound := Sound.of_reached (.of_run hL h)
    exact ⟨hsound.challenged_iff hP hj hfind, fun hstate => hsound.challenge_at hj hstate hfind⟩

namespace Sample

/-- The ledger the sample job is created on. -/
def readyLedger : Ledger := play platform ledger setup

/-- What the parties of the sample do from its creation to the slashing of the bond. -/
def story : Script := engage 10 terms ++ [submit 40, challenge, slash]

/-- What the parties of the sample do up to the slashing of the bond. -/
def slashing : Script := setup ++ story

def slashedLedger : Ledger := play platform ledger slashing

def slashedJob : JobAccount := { challengedJob with state := .slashed, lockedBond := 0 }

theorem run_submission : Run (ChainStep platform) ledger
    (transitions platform ledger submission) submittedLedger := by
  unfold submittedLedger
  exact run_of_script playable_submission

theorem slashing_eq : slashing = submission ++ [challenge] ++ [slash] := by
  simp only [slashing, story, submission, List.append_assoc, List.cons_append, List.nil_append]

theorem run_challenge : Run (ChainStep platform) ledger
    (transitions platform ledger (submission ++ [challenge])) challengedLedger := by
  unfold challengedLedger
  exact run_of_script playable_slashing.of_append

theorem run_slashing : Run (ChainStep platform) ledger
    (transitions platform ledger slashing) slashedLedger := by
  unfold slashedLedger
  rw [slashing_eq]
  exact run_of_script playable_slashing

theorem job_at_slashedLedger :
    slashedLedger.recordAt platform.programId jobKey = some (.job slashedJob) := by
  decide +kernel

theorem find_challengeKey :
    platform.tryFindProgramAddress (challengeSeedParts jobKey) platform.programId =
      some (challengeKey, 255) := by
  decide

theorem incarnation : ∃ x tr, transitions platform readyLedger story = x :: tr ∧
    Incarnation platform jobKey x tr := by
  refine ⟨_, _, rfl, by decide +kernel, ?_⟩
  have hall : ((transitions platform readyLedger story).all fun y =>
      ((abs platform y.target).jobAt jobKey).isSome) = true := by decide +kernel
  exact List.all_eq_true.mp hall

end Sample

/-- The sample job lives from its creation to the slashing of the bond. Its challenge is with the
program while it is challenged, and no longer once it is slashed. -/
theorem jobs_live_sample :
    Life (jobsAt Sample.platform Sample.jobKey
      (transitions Sample.platform Sample.readyLedger Sample.story)) ∧
      (Sample.challengedLedger.account Sample.challengeKey).owner = Sample.platform.programId ∧
      (∃ c, Sample.challengedLedger.recordAt Sample.platform.programId Sample.challengeKey =
          some (.challenge c) ∧ c.status = ChallengeAccount.statusOpen ∧
        c.job = Sample.jobKey ∧ c.buyer = Sample.buyer) ∧
      (Sample.slashedLedger.account Sample.challengeKey).owner ≠ Sample.platform.programId := by
  have hslashing := jobs_live Sample.collisionFree Sample.genesis Sample.run_slashing
  refine ⟨?_, ?_⟩
  · obtain ⟨x, tr, htr, hincarnation⟩ := Sample.incarnation
    rw [htr]
    refine hslashing.1 _ (transitions Sample.platform Sample.ledger Sample.setup) x tr [] ?_
      hincarnation
    rw [List.append_nil, ← htr]
    exact transitions_append _ _
  · obtain ⟨-, hlive⟩ := jobs_live Sample.collisionFree Sample.genesis Sample.run_challenge
    obtain ⟨hiff, hopen⟩ := hlive Sample.jobKey Sample.challengedJob Sample.challengeKey 255
      (jobAt_of_recordAt Sample.views_challengedLedger.1) Sample.find_challengeKey
    obtain ⟨hslashed, -⟩ := hslashing.2 Sample.jobKey Sample.slashedJob Sample.challengeKey 255
      (jobAt_of_recordAt Sample.job_at_slashedLedger) Sample.find_challengeKey
    refine ⟨hiff.mp rfl, hopen rfl, fun howner => ?_⟩
    cases hslashed.mpr howner

end AgentBond
