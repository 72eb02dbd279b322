import AgentBond.Chain.Refinement
import AgentBond.Foundation.Transition
import AgentBond.Protocol.Payout

/-! # The program on its chain

Runs of the program: successful instructions in any order, with any accounts,
signers and clock, between arbitrary transactions of others that the runtime and
the token program admit.
-/

namespace AgentBond

open Foundation Protocol

/-- What transactions that do not call the program can do. Only the owner of an account changes
its data, an account is assigned with its data zeroed, an address of the program never signs
outside it, and the token program takes from an account for its owner only. -/
structure ThirdParty (P : Platform) (L L' : Ledger) : Prop where
  owned : ∀ {k}, (L.account k).owner = P.programId → SameView L L' k
  assigned : ∀ {k}, (L'.account k).owner = P.programId → (L.account k).owner = P.programId ∨
    ∀ b ∈ (L'.account k).data.bytes, b = 0
  unused : ∀ {k}, P.Pda k → (L.account k).Unused → (L'.account k).Unused
  tokens : ∀ {k t}, L.tokenAt k = some t → P.Pda t.owner → t.delegate = none → t.amount ≠ 0 →
    ∃ t', L'.tokenAt k = some t' ∧ t'.mint = t.mint ∧ t'.owner = t.owner ∧ t'.delegate = none ∧
      t.amount ≤ t'.amount
  mints : ∀ {k m}, L.mintAt k = some m → m.isInitialized = true → L'.mintAt k = some m

/-- A ledger the program has never run on. -/
structure Genesis (P : Platform) (L : Ledger) : Prop where
  blank : ∀ {k}, (L.account k).owner = P.programId → ∀ b ∈ (L.account k).data.bytes, b = 0
  unused : ∀ {k}, P.Pda k → (L.account k).Unused
  capitalized : L.Capitalized

inductive Action
  | instruction (ctx : Ctx) (data : List UInt8)
  | thirdParty

/-- One successful instruction, or something others do. -/
inductive ChainStep (P : Platform) : Ledger → Action → Ledger → Prop
  | instruction {ctx : Ctx} {data : List UInt8} {L L' : Ledger} {ev : ProtocolEvent}
      (signers : SignedByWallets P ctx) (ok : process P ctx L data = .ok (L', ev))
      (capitalized : L'.Capitalized) : ChainStep P L (.instruction ctx data) L'
  | thirdParty {L L' : Ledger} (others : ThirdParty P L L') (capitalized : L'.Capitalized) :
      ChainStep P L .thirdParty L'

/-- The ledgers some run of the program leads to. -/
abbrev Reached (P : Platform) : Ledger → Prop := Reachable (ChainStep P) (Genesis P)

variable {P : Platform} {L L' : Ledger} {action : Action}

theorem ThirdParty.recordAt_eq (h : ThirdParty P L L') :
    L'.recordAt P.programId = L.recordAt P.programId := by
  funext k
  by_cases ho : (L.account k).owner = P.programId
  · exact (h.owned ho).recordAt_eq
  · rw [Ledger.recordAt_of_owner ho]
    by_cases ho' : (L'.account k).owner = P.programId
    · rw [Ledger.recordAt, if_pos ho']
      exact Record.decode_of_zeroed ((h.assigned ho').resolve_left ho)
    · exact Ledger.recordAt_of_owner ho'

theorem ThirdParty.outside (h : ThirdParty P L L') : Outside P (abs P L) (abs P L') where
  records := h.recordAt_eq
  tokens := h.tokens
  mints := h.mints

theorem ThirdParty.tidy (h : ThirdParty P L L') (ht : Tidy P L ∅) : Tidy P L' ∅ := by
  intro k hk hE
  rcases ht k hk hE with hu | ⟨r, hr⟩
  · exact Or.inl (h.unused hk hu)
  · exact Or.inr ⟨r, by rwa [h.recordAt_eq]⟩

/-- The invariants of every ledger the program can run on. -/
structure Sound (P : Platform) (L : Ledger) : Prop where
  inv : Inv P (abs P L)
  tidy : Tidy P L ∅
  capitalized : L.Capitalized

theorem Genesis.recordAt_eq (h : Genesis P L) (k : Pubkey) : L.recordAt P.programId k = none := by
  rw [Ledger.recordAt]
  split
  · exact Record.decode_of_zeroed (h.blank ‹_›)
  · rfl

theorem Sound.of_genesis (h : Genesis P L) : Sound P L where
  inv := .of_empty h.recordAt_eq
  tidy := fun _ hk _ => Or.inl (h.unused hk)
  capitalized := h.capitalized

theorem Sound.step (h : Sound P L) (hs : ChainStep P L action L') : Sound P L' := by
  cases hs with
  | instruction signers ok capitalized =>
    obtain ⟨ix, -, hstep, htidy⟩ := refined_of_process signers ok
    exact ⟨h.inv.step hstep, htidy h.tidy, capitalized⟩
  | thirdParty others capitalized =>
    exact ⟨h.inv.outside others.outside, others.tidy h.tidy, capitalized⟩

theorem Sound.of_reached (h : Reached P L) : Sound P L :=
  h.invariant (fun _ => Sound.of_genesis) fun _ _ _ => Sound.step

theorem Sound.config_found (h : Sound P L) {k : Pubkey} {c : ConfigAccount}
    (hc : L.recordAt P.programId k = some (.config c)) :
    P.tryFindProgramAddress configSeedParts P.programId = some (k, c.bump) :=
  h.inv.found k _ hc

theorem Sound.job_found (h : Sound P L) {k : Pubkey} {j : JobAccount}
    (hj : L.recordAt P.programId k = some (.job j)) :
    P.tryFindProgramAddress (jobSeedParts j.buyer j.provider j.jobNonce) P.programId =
      some (k, j.bump) :=
  h.inv.found k _ hj

theorem Sound.challenge_found (h : Sound P L) {k : Pubkey} {c : ChallengeAccount}
    (hc : L.recordAt P.programId k = some (.challenge c)) :
    P.tryFindProgramAddress (challengeSeedParts c.job) P.programId = some (k, c.bump) :=
  h.inv.found k _ hc

/-- A record is left alone, or changed by an instruction. -/
theorem ChainStep.evolved (hs : ChainStep P L action L') (a : Pubkey) :
    L'.recordAt P.programId a = L.recordAt P.programId a ∨
      ∃ ctx data ix, action = .instruction ctx data ∧ Instruction.parse data = .ok ix ∧
        Evolves ctx.now ix (L.recordAt P.programId a) (L'.recordAt P.programId a) := by
  cases hs with
  | @instruction ctx data _ _ _ signers ok =>
    obtain ⟨ix, hparse, hstep, -⟩ := refined_of_process signers ok
    exact (hstep.evolved a).imp id fun he => ⟨ctx, data, ix, rfl, hparse, he⟩
  | thirdParty others => exact Or.inl (congrFun others.recordAt_eq a)

/-- The transitions of a run start and end in sound ledgers. -/
theorem Sound.of_mem {tr : List (Transition Ledger Action)} {x : Transition Ledger Action}
    (hL : Genesis P L) (h : Run (ChainStep P) L tr L') (hx : x ∈ tr) :
    Sound P x.source ∧ ChainStep P x.source x.label x.target :=
  h.step_of_mem (I := Sound P) (fun _ _ _ => Sound.step) (.of_genesis hL) hx

end AgentBond
