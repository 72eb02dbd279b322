import AgentBond.Chain.Closing
import AgentBond.Chain.Events
import AgentBond.Chain.Lifecycle

/-! # The history of a job

The history of a job is what the events with its address as their subject say,
in chain order. It is the list of the changes of the job account without its
closings, whose events name the buyer instead.
-/

namespace AgentBond

open Foundation Protocol

/-- The event of a transition, when it is an instruction. -/
def eventOf (P : Platform) (x : Transition Ledger Action) : Option ProtocolEvent :=
  match x.label with
  | .instruction ctx data =>
    match process P ctx x.source data with
    | .ok (_, ev) => some ev
    | .error _ => none
  | .thirdParty => none

/-- The events with the subject, in chain order. -/
def jobHistory (P : Platform) (subject : Pubkey) (tr : List (Transition Ledger Action)) :
    List ProtocolEvent :=
  (tr.filterMap (eventOf P)).filter (·.subject = subject)

/-- The changes of the job account at the address, by the kind of event that announces them. -/
def jobChanges (P : Platform) (a : Pubkey) (tr : List (Transition Ledger Action)) :
    List ProtocolEventKind :=
  tr.filterMap fun x => moveKind ((abs P x.source).jobAt a) ((abs P x.target).jobAt a)

/-- The state of a job account after an event, none when there is no account. -/
def replayStep (st : Option JobState) : ProtocolEventKind → Option JobState
  | .jobCreated => some .created
  | .jobFunded => some .funded
  | .jobAccepted => some .accepted
  | .receiptSubmitted => some .submitted
  | .jobChallenged => some .challenged
  | .jobSettled => some .settled
  | .jobRefunded => some .refunded
  | .jobExpired => some .expired
  | .jobSlashed => some .slashed
  | .jobClosed => none
  | _ => st

/-- The state the events of a job leave it in. -/
def replay (kinds : List ProtocolEventKind) : Option JobState := kinds.foldl replayStep none

section History

variable {P : Platform} {L L' : Ledger} {a : Pubkey} {action : Action}
  {tr : List (Transition Ledger Action)} {x : Transition Ledger Action} {s s' : State}
  {kind : ProtocolEventKind}

/-- The address derived for a job. -/
def JobAddress (P : Platform) (a : Pubkey) : Prop :=
  ∃ buyer provider jobNonce bump,
    P.tryFindProgramAddress (jobSeedParts buyer provider jobNonce) P.programId = some (a, bump)

/-- The transition is a `CloseJob` of the job at the address. -/
def ClosesJob (a : Pubkey) (x : Transition Ledger Action) : Prop :=
  ∃ ctx data m, x.label = .instruction ctx data ∧ Instruction.parse data = .ok .closeJob ∧
    ctx.accounts[1]? = some m ∧ m.key = a

/-- The seeds a history is about: those of the job, and of the records along the run. -/
inductive DerivedAlong (P : Platform) (a : Pubkey) (tr : List (Transition Ledger Action)) :
    Seeds → Prop
  | job {buyer provider : Pubkey} {jobNonce : UInt64} {bump : UInt8}
      (find : P.tryFindProgramAddress (jobSeedParts buyer provider jobNonce) P.programId =
        some (a, bump)) : DerivedAlong P a tr (jobSeedParts buyer provider jobNonce ++ [[bump]])
  | record {x : Transition Ledger Action} {k : Pubkey} {r : Record} (mem : x ∈ tr)
      (record_at : x.target.recordAt P.programId k = some r) :
    DerivedAlong P a tr (r.seeds ++ [[r.bump]])

theorem DerivedAlong.mono {tr' : List (Transition Ledger Action)} {seeds : Seeds}
    (hle : ∀ x ∈ tr', x ∈ tr) (h : DerivedAlong P a tr' seeds) : DerivedAlong P a tr seeds := by
  cases h with
  | job find => exact .job find
  | record mem record_at => exact .record (hle _ mem) record_at

theorem ne_of_concernsOther {ev : ProtocolEvent} (hP : P.CollisionFree (DerivedAlong P a tr))
    (ha : JobAddress P a) (hx : x ∈ tr) (h : Sound P x.target)
    (hother : ConcernsOther P x.target ev) : ev.subject ≠ a := by
  rintro rfl
  obtain ⟨buyer, provider, jobNonce, bump, hfind⟩ := ha
  obtain ⟨r, hr, hrecord⟩ := hother
  have hlen := congrArg List.length (hP (.record hx hrecord) (.job hfind)
    (h.inv.found.address hrecord) (P.create_of_find hfind))
  rw [length_seeds] at hlen
  cases r with
  | job j => cases hr
  | _ => simp [jobSeedParts, jobSeed] at hlen

/-- What the event of an instruction says about the job at an address: the change of the job
account, unless it is its closing. -/
theorem event_of_instruction {ctx : Ctx} {data : List UInt8} {ev : ProtocolEvent}
    (ha : JobAddress P a) (h : Sound P L) (hs : SignedByWallets P ctx)
    (hok : process P ctx L data = .ok (L', ev)) (hother : ConcernsOther P L' ev → ev.subject ≠ a) :
    (if ev.subject = a then some ev.kind else none) =
      (moveKind ((abs P L).jobAt a) ((abs P L').jobAt a)).filter (· ≠ .jobClosed) := by
  obtain ⟨ix, hparse, hstep, -⟩ := refined_of_process hs hok
  have hix : processInstruction P ctx L ix = .ok (L', ev) := by
    rw [← hok, process_of_parse hparse]
  rcases hstep.moves with ⟨hnone, hsame⟩ | ⟨kind, i, hkind, hmoves⟩
  · have hne := hother (concernsOther_of_processInstruction hix hnone)
    rw [if_neg hne, hsame a, moveKind_self]
    rfl
  · rw [hmoves.kind_at a]
    by_cases hclose : ix = .closeJob
    · subst hclose
      obtain ⟨m, j, -, hj, hbuyer⟩ := subject_of_closeJob hix
      cases hkind
      have hne : ev.subject ≠ a := by
        intro he
        obtain ⟨_, _, _, _, hfind⟩ := ha
        exact (h.inv.valid _ _ hj).1 (hbuyer ▸ he ▸ Platform.pda_of_find hfind)
      rw [if_neg hne]
      split
      · rfl
      · rfl
    · obtain ⟨hkindeq, hchanged⟩ := announces_of_processInstruction hix hkind hclose
      obtain rfl := hmoves.eq_of_ne hchanged
      have hopen : kind ≠ .jobClosed := by
        rintro rfl
        cases ix <;> cases hkind
        exact hclose rfl
      rw [hkindeq]
      by_cases he : ev.subject = a
      · rw [if_pos he, if_pos he.symm, Option.filter_some, if_pos (by simpa using hopen)]
      · rw [if_neg he, if_neg (Ne.symm he)]
        rfl

theorem ChainStep.event (hP : P.CollisionFree (DerivedAlong P a tr)) (ha : JobAddress P a)
    (hx : x ∈ tr) (h : Sound P x.source) (hs : ChainStep P x.source x.label x.target) :
    ((eventOf P x).filter (·.subject = a)).map (·.kind) =
      (moveKind ((abs P x.source).jobAt a) ((abs P x.target).jobAt a)).filter (· ≠ .jobClosed) := by
  have h' := Sound.step h hs
  obtain ⟨L, action, L'⟩ := x
  cases hs with
  | @instruction ctx data _ _ ev signers ok =>
    have hevent : eventOf P ⟨L, .instruction ctx data, L'⟩ = some ev := by
      simp only [eventOf, ok]
    rw [hevent, ← event_of_instruction ha h signers ok (ne_of_concernsOther hP ha hx h'),
      Option.filter_some]
    by_cases he : ev.subject = a
    · simp [he]
    · simp [he]
  | thirdParty others =>
    have hsame : (abs P L').jobAt a = (abs P L).jobAt a := by
      rw [State.jobAt, State.jobAt, others.outside.records]
    rw [hsame, moveKind_self]
    rfl

/-- The history of a job is the list of its changes without its closings. -/
theorem jobHistory_eq (hP : P.CollisionFree (DerivedAlong P a tr)) (ha : JobAddress P a)
    (h : Sound P L) (hrun : Run (ChainStep P) L tr L') :
    (jobHistory P a tr).map (·.kind) = (jobChanges P a tr).filter (· ≠ .jobClosed) := by
  rw [jobHistory, jobChanges, List.filter_filterMap, List.map_filterMap, List.filter_filterMap]
  refine List.filterMap_congr fun x hx => ?_
  obtain ⟨hsound, hstep⟩ := hrun.step_of_mem (I := Sound P) (fun _ _ _ => Sound.step) h hx
  exact hstep.event hP ha hx hsound

theorem ChainStep.closes_iff (hs : ChainStep P x.source x.label x.target) :
    moveKind ((abs P x.source).jobAt a) ((abs P x.target).jobAt a) = some .jobClosed ↔
      ClosesJob a x := by
  obtain ⟨L, action, L'⟩ := x
  cases hs with
  | @instruction ctx data _ _ ev signers ok =>
    obtain ⟨ix, hparse, hstep, -⟩ := refined_of_process signers ok
    have hix : processInstruction P ctx L ix = .ok (L', ev) := by
      rw [← ok, process_of_parse hparse]
    constructor
    · intro hkind
      rcases hstep.moves with ⟨-, hsame⟩ | ⟨kind, i, hix', hmoves⟩
      · rw [hsame a, moveKind_self] at hkind
        cases hkind
      · rw [hmoves.kind_at a] at hkind
        split at hkind
        · rename_i hai
          obtain rfl := Option.some.inj hkind
          have hclose : ix = .closeJob := by
            cases ix <;> first | rfl | cases hix'
          subst hclose
          obtain ⟨m, j, hm, hj, hgone, -⟩ := effect_of_closeJob hix
          have hbefore : (abs P L).jobAt m.key = some j := State.jobAt_eq_some.mpr hj
          have hafter : (abs P L').jobAt m.key = none :=
            State.jobAt_of_records (s := abs P L') hgone
          have hchanged : (abs P L').jobAt m.key ≠ (abs P L).jobAt m.key := by
            rw [hbefore, hafter]
            simp
          exact ⟨ctx, data, m, rfl, hparse, hm, (hmoves.eq_of_ne hchanged).trans hai.symm⟩
        · cases hkind
    · rintro ⟨ctx', data', m, hlabel, hparse', hm, rfl⟩
      cases hlabel
      rw [hparse, Except.ok.injEq] at hparse'
      subst hparse'
      obtain ⟨m', j, hm', hj, hgone, -⟩ := effect_of_closeJob hix
      rw [hm, Option.some.injEq] at hm'
      subst hm'
      rw [State.jobAt_eq_some.mpr hj, State.jobAt_of_records hgone]
      rfl
  | thirdParty others =>
    have hsame : (abs P L').jobAt a = (abs P L).jobAt a := by
      rw [State.jobAt, State.jobAt, others.outside.records]
    rw [hsame, moveKind_self]
    constructor
    · intro h
      cases h
    · rintro ⟨ctx, data, m, hlabel, -⟩
      cases hlabel

theorem replayStep_announcement (st : Option JobState) (st' : JobState) :
    replayStep st st'.announcement = some st' := by
  cases st' <;> rfl

theorem exists_replayStep {o o' : Option JobAccount} (h : JobMove o o') :
    ∃ kind, moveKind o o' = some kind ∧ replayStep (o.map (·.state)) kind = o'.map (·.state) := by
  cases h with
  | @created j created => exact ⟨.jobCreated, rfl, congrArg some created.symm⟩
  | @moved j j' next =>
    refine ⟨j'.state.announcement, ?_, replayStep_announcement _ _⟩
    rw [moveKind, if_neg (ne_of_validateTransition next.transition)]
  | closed terminal => exact ⟨.jobClosed, rfl, rfl⟩

/-- The changes of a job account lead from its state before a run to its state after it. -/
theorem replay_jobChanges (hrun : Run (ChainStep P) L tr L') :
    (jobChanges P a tr).foldl replayStep (((abs P L).jobAt a).map (·.state)) =
      ((abs P L').jobAt a).map (·.state) := by
  induction tr generalizing L with
  | nil =>
    obtain rfl : L = L' := hrun
    rfl
  | cons x tr ih =>
    obtain ⟨rfl, hx, hrest⟩ := hrun
    rw [← ih hrest, jobChanges, List.filterMap_cons]
    rcases hx.jobMove a with hsame | hmove
    · rw [hsame, moveKind_self]
      rfl
    · obtain ⟨kind, hkind, hstep⟩ := exists_replayStep hmove
      rw [hkind, ← hstep]
      rfl

/-- The history tells every change of the job account and replays to its state. -/
structure HistoryFaithful (P : Platform) (a : Pubkey) (tr : List (Transition Ledger Action))
    (L' : Ledger) : Prop where
  changes : (jobHistory P a tr).map (·.kind) = jobChanges P a tr
  replayed : replay ((jobHistory P a tr).map (·.kind)) = ((abs P L').jobAt a).map (·.state)

/-- Along a run the history of a job is faithful at every point exactly when the job is never
closed. -/
theorem history_faithful_iff (hP : P.CollisionFree (DerivedAlong P a tr)) (hL : Genesis P L)
    (hrun : Run (ChainStep P) L tr L') (ha : JobAddress P a) :
    (∀ tr₁ tr₂ M, tr = tr₁ ++ tr₂ → Run (ChainStep P) L tr₁ M → HistoryFaithful P a tr₁ M) ↔
      ∀ x ∈ tr, ¬ ClosesJob a x := by
  have hs := Sound.of_genesis hL
  constructor
  · intro hfaithful x hx hclose
    have hkind := (hrun.step_of_mem (I := Sound P) (fun _ _ _ => Sound.step) hs hx).2.closes_iff.mpr
      hclose
    have hmem : .jobClosed ∈ jobChanges P a tr := List.mem_filterMap.mpr ⟨x, hx, hkind⟩
    rw [← (hfaithful tr [] L' (List.append_nil tr).symm hrun).changes,
      jobHistory_eq hP ha hs hrun] at hmem
    simp at hmem
  · rintro hopen tr₁ tr₂ M rfl hrun₁
    have hP₁ : P.CollisionFree (DerivedAlong P a tr₁) :=
      hP.mono fun _ => DerivedAlong.mono fun _ hx => List.mem_append_left _ hx
    have hchanges : (jobHistory P a tr₁).map (·.kind) = jobChanges P a tr₁ := by
      rw [jobHistory_eq hP₁ ha hs hrun₁, List.filter_eq_self]
      intro kind hkind
      obtain ⟨x, hx, hmove⟩ := List.mem_filterMap.mp hkind
      have hstep := (hrun₁.step_of_mem (I := Sound P) (fun _ _ _ => Sound.step) hs hx).2
      refine decide_eq_true ?_
      rintro rfl
      exact hopen x (List.mem_append_left _ hx) (hstep.closes_iff.mp hmove)
    refine ⟨hchanges, ?_⟩
    rw [hchanges, ← replay_jobChanges hrun₁, State.jobAt, records_abs, hL.recordAt_eq]
    rfl

end History

namespace Sample

/-- The whole life of the sample job: created, worked on, settled and closed. -/
def closing : Script := submission ++ [settle, close]

theorem run_closing : Run (ChainStep platform) ledger (transitions platform ledger closing)
    (play platform ledger closing) := by
  have hplayable : Playable platform wallets ledger closing := by
    rw [closing, List.append_cons]
    exact playable_life
  exact run_of_script hplayable

theorem jobAddress : JobAddress platform jobKey :=
  ⟨buyer, provider, 7, 255, by decide⟩

theorem not_closesJob : ∀ x ∈ transitions platform ledger submission, ¬ ClosesJob jobKey x := by
  have hparse : ∀ y ∈ submission, Instruction.parse y.2 ≠ .ok .closeJob := by decide +kernel
  rintro x hx ⟨ctx, data, m, hlabel, hclose, -⟩
  obtain ⟨y, hy, hxy⟩ := label_of_mem_transitions hx
  rw [hxy] at hlabel
  cases hlabel
  exact hparse y hy hclose

theorem history_of_closing :
    (jobHistory platform jobKey (transitions platform ledger closing)).map (·.kind) =
        [.jobCreated, .jobFunded, .jobAccepted, .receiptSubmitted, .jobSettled] ∧
      jobChanges platform jobKey (transitions platform ledger closing) =
        [.jobCreated, .jobFunded, .jobAccepted, .receiptSubmitted, .jobSettled, .jobClosed] := by
  decide +kernel

end Sample

/-- The closing of the sample job is missing in its history, which replays to a settled job. -/
theorem history_misses_closing :
    Genesis Sample.platform Sample.ledger ∧
    Run (ChainStep Sample.platform) Sample.ledger
      (transitions Sample.platform Sample.ledger Sample.closing)
      (play Sample.platform Sample.ledger Sample.closing) ∧
    JobAddress Sample.platform Sample.jobKey ∧
    (jobHistory Sample.platform Sample.jobKey
      (transitions Sample.platform Sample.ledger Sample.closing)).map (·.kind) =
        [.jobCreated, .jobFunded, .jobAccepted, .receiptSubmitted, .jobSettled] ∧
    jobChanges Sample.platform Sample.jobKey
      (transitions Sample.platform Sample.ledger Sample.closing) =
        [.jobCreated, .jobFunded, .jobAccepted, .receiptSubmitted, .jobSettled, .jobClosed] ∧
    ¬ HistoryFaithful Sample.platform Sample.jobKey
      (transitions Sample.platform Sample.ledger Sample.closing)
      (play Sample.platform Sample.ledger Sample.closing) := by
  obtain ⟨hhistory, hchanges⟩ := Sample.history_of_closing
  refine ⟨Sample.genesis, Sample.run_closing, Sample.jobAddress, hhistory, hchanges, ?_⟩
  intro hfaithful
  have he := hfaithful.changes
  rw [hhistory, hchanges] at he
  cases he

/-- The history of the sample job is faithful up to its receipt. -/
theorem history_faithful_iff_sample : HistoryFaithful Sample.platform Sample.jobKey
    (transitions Sample.platform Sample.ledger Sample.submission) Sample.submittedLedger :=
  (history_faithful_iff Sample.collisionFree Sample.genesis Sample.run_submission
    Sample.jobAddress).mpr Sample.not_closesJob _ [] _ (List.append_nil _).symm
      Sample.run_submission

end AgentBond
