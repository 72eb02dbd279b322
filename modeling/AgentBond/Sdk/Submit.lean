import AgentBond.Sdk.Receipt

/-! # Checking a plan before it is signed

A plan that was loaded from a file may hold instructions of the program, and of
the signature precompile where an instruction of the program comes next. The
check does not look at which instruction that is.
-/

namespace AgentBond

open Foundation

def ed25519ProgramText : Text := "Ed25519SigVerify111111111111111111111111111".toList

/-- The programs of the instructions, each with the instruction after it. -/
def checkInstructions (planProgram ed25519 : Pubkey) : List ChainInstruction → Planned Unit
  | [] => .ok ()
  | ix :: ixs =>
    if ix.programId = planProgram then checkInstructions planProgram ed25519 ixs
    else if ix.programId = ed25519 then do
      let next ← okOr ixs.head? (.invalidInput "Ed25519 instruction must precede SubmitReceipt")
      ensure (next.programId = planProgram)
        (.invalidInput "Ed25519 instruction must immediately precede AgentBond SubmitReceipt")
      checkInstructions planProgram ed25519 ixs
    else
      .error (.invalidInput
        ("plan contains disallowed program " ++ String.ofList (keyToText ix.programId)))

/-- The keys that sign, as text. -/
def metaSigners (ixs : List ChainInstruction) : List Text :=
  ixs.flatMap fun ix => (ix.accounts.filter fun acc => acc.isSigner).map fun acc =>
    keyToText acc.key

def checkSigners (signers : List Text) : List Text → Planned Unit
  | [] => .ok ()
  | required :: rest => do
    ensure (required ∈ signers)
      (.invalidInput ("required signer " ++ String.ofList required ++
        " missing from instruction account metadata"))
    checkSigners signers rest

def validatePlanInstructions (plan : InstructionPlan) (expectedProgram : Pubkey) (now : Int64) :
    Planned Unit := do
  let planProgram ← parsePubkey plan.programId
  ensure (planProgram = expectedProgram)
    (.invalidInput "plan.program_id does not match configured program")
  ensure (plan.expiresAt.any (fun expires => expires < now) = false)
    (.invalidInput "plan has expired")
  let ixs ← plan.toSolanaInstructions
  ensure (ixs ≠ []) (.invalidInput "plan has no instructions")
  let ed25519 ← okOr (Base58.decodeKey ed25519ProgramText)
    (.invalidInput "bad ed25519 program id")
  checkInstructions planProgram ed25519 ixs
  checkSigners (metaSigners ixs) plan.requiredSigners

/-- Every element of the list, with the one after it. -/
def Successive {α : Type} (R : α → Option α → Prop) (xs : List α) : Prop :=
  ∀ i x, xs[i]? = some x → R x xs[i + 1]?

theorem successive_cons {α : Type} {R : α → Option α → Prop} {x : α} {xs : List α} :
    Successive R (x :: xs) ↔ R x xs.head? ∧ Successive R xs := by
  constructor
  · intro h
    refine ⟨?_, fun i y hy => ?_⟩
    · have h0 := h 0 x rfl
      rwa [List.getElem?_cons_succ, ← List.head?_eq_getElem?] at h0
    · exact h (i + 1) y hy
  · rintro ⟨hx, hxs⟩ i y hy
    cases i with
    | zero =>
      cases hy
      rwa [List.getElem?_cons_succ, ← List.head?_eq_getElem?]
    | succ i => exact hxs i y hy

/-- An instruction of the program, or of the precompile before one of the program. -/
def Permitted (program : Pubkey) (ix : ChainInstruction) (next : Option ChainInstruction) : Prop :=
  ix.programId = program ∨
    ix.programId = ed25519ProgramId ∧ ∃ n, next = some n ∧ n.programId = program

/-- An instruction that submits a receipt. -/
def SubmitsReceipt (ix : ChainInstruction) : Prop :=
  ∃ receipt, Instruction.parse ix.data = .ok (.submitReceipt receipt)

/-- The rules that the check enforces on a plan with these instructions. -/
structure CheckedPlan (plan : InstructionPlan) (expected : Pubkey) (now : Int64)
    (ixs : List ChainInstruction) : Prop where
  program : parsePubkey plan.programId = .ok expected
  unexpired : ∀ expires, plan.expiresAt = some expires → now ≤ expires
  instructions : plan.toSolanaInstructions = .ok ixs
  nonempty : ixs ≠ []
  permitted : Successive (Permitted expected) ixs
  signers : ∀ required ∈ plan.requiredSigners,
    ∃ ix ∈ ixs, ∃ acc ∈ ix.accounts, acc.isSigner = true ∧ keyToText acc.key = required

/-- The rules of plans: every instruction is one of the program or the precompile's before a
receipt is submitted, the required signers sign and the plan has not expired. -/
structure AllowedPlan (plan : InstructionPlan) (expected : Pubkey) (now : Int64) : Prop where
  unexpired : ∀ expires, plan.expiresAt = some expires → now ≤ expires
  instructions : ∃ ixs, plan.toSolanaInstructions = .ok ixs ∧
    Successive (fun ix next => ix.programId = expected ∨ ix.programId = ed25519ProgramId ∧
      ∃ n, next = some n ∧ n.programId = expected ∧ SubmitsReceipt n) ixs ∧
    ∀ required ∈ plan.requiredSigners,
      ∃ ix ∈ ixs, ∃ acc ∈ ix.accounts, acc.isSigner = true ∧ keyToText acc.key = required

section Check

variable {plan : InstructionPlan} {program ed25519 : Pubkey} {now : Int64}
  {ixs : List ChainInstruction}

theorem decodeKey_ed25519ProgramText :
    Base58.decodeKey ed25519ProgramText = some ed25519ProgramId := by
  decide +kernel

theorem checkInstructions_eq_ok : checkInstructions program ed25519ProgramId ixs = .ok () ↔
    Successive (Permitted program) ixs := by
  induction ixs with
  | nil =>
    refine iff_of_true rfl fun i x hx => ?_
    cases hx
  | cons ix ixs ih =>
    rw [checkInstructions, successive_cons]
    split
    · rename_i hprogram
      rw [ih]
      exact ⟨fun h => ⟨.inl hprogram, h⟩, fun h => h.2⟩
    · rename_i hprogram
      split
      · rename_i hed
        simp only [bind_eq_ok, okOr_eq_ok, ensure_eq_ok, exists_const, ih]
        constructor
        · rintro ⟨next, hnext, hn, h⟩
          exact ⟨.inr ⟨hed, next, hnext, hn⟩, h⟩
        · rintro ⟨h | ⟨-, next, hnext, hn⟩, h'⟩
          · exact absurd h hprogram
          · exact ⟨next, hnext, hn, h'⟩
      · rename_i hed
        refine iff_of_false (fun h => ?_) ?_
        · cases h
        · rintro ⟨h | ⟨h, -⟩, -⟩
          · exact hprogram h
          · exact hed h

theorem checkSigners_eq_ok {signers required : List Text} :
    checkSigners signers required = .ok () ↔ ∀ r ∈ required, r ∈ signers := by
  induction required with
  | nil => exact iff_of_true rfl nofun
  | cons r required ih =>
    simp only [checkSigners, bind_eq_ok, ensure_eq_ok, exists_const, ih, List.forall_mem_cons]

theorem mem_metaSigners {signer : Text} : signer ∈ metaSigners ixs ↔
    ∃ ix ∈ ixs, ∃ acc ∈ ix.accounts, acc.isSigner = true ∧ keyToText acc.key = signer := by
  simp only [metaSigners, List.mem_flatMap, List.mem_map, List.mem_filter, and_assoc]

/-- A plan passes if it keeps the rules that are checked. -/
theorem validatePlanInstructions_eq_ok : validatePlanInstructions plan program now = .ok () ↔
    ∃ ixs, CheckedPlan plan program now ixs := by
  have hexpiry : plan.expiresAt.any (fun expires => expires < now) = false ↔
      ∀ expires, plan.expiresAt = some expires → now ≤ expires := by
    cases plan.expiresAt with
    | none => simp
    | some expires => simp
  simp only [validatePlanInstructions, bind_eq_ok, ensure_eq_ok, exists_const, okOr_eq_ok,
    decodeKey_ed25519ProgramText, Option.some.injEq, hexpiry]
  constructor
  · rintro ⟨_, hprogram, rfl, hexpires, ixs, hixs, hne, _, rfl, _, hcheck, hsigners⟩
    exact ⟨ixs, hprogram, hexpires, hixs, hne, checkInstructions_eq_ok.mp hcheck, fun r hr =>
      mem_metaSigners.mp (checkSigners_eq_ok.mp hsigners r hr)⟩
  · rintro ⟨ixs, h⟩
    refine
      ⟨program, h.program, rfl, h.unexpired, ixs, h.instructions, h.nonempty, _, rfl, (), ?_, ?_⟩
    · exact checkInstructions_eq_ok.mpr h.permitted
    · exact checkSigners_eq_ok.mpr fun r hr => mem_metaSigners.mpr (h.signers r hr)

/-- A plan that passes keeps the rules of plans if the precompile stands only before instructions
that submit a receipt. -/
theorem validate_allows_iff :
    (validatePlanInstructions plan program now = .ok () → AllowedPlan plan program now) ↔
      ∀ ixs, CheckedPlan plan program now ixs → ∀ i ix next, ixs[i]? = some ix →
        ixs[i + 1]? = some next → ix.programId = ed25519ProgramId → ix.programId ≠ program →
        SubmitsReceipt next := by
  rw [validatePlanInstructions_eq_ok]
  constructor
  · intro h ixs hixs i ix next hix hnext hed hne
    obtain ⟨ixs', hixs', hallowed, -⟩ := (h ⟨ixs, hixs⟩).instructions
    cases hixs.instructions.symm.trans hixs'
    rcases hallowed i ix hix with hprogram | ⟨-, n, hn, -, hsubmits⟩
    · exact absurd hprogram hne
    · cases hnext.symm.trans hn
      exact hsubmits
  · rintro h ⟨ixs, hixs⟩
    refine ⟨hixs.unexpired, ixs, hixs.instructions, fun i ix hix => ?_, hixs.signers⟩
    by_cases hprogram : ix.programId = program
    · exact .inl hprogram
    · obtain ⟨hed, n, hn, hn'⟩ := (hixs.permitted i ix hix).resolve_left hprogram
      exact .inr ⟨hed, n, hn, hn', h ixs hixs i ix n hix hn hed hprogram⟩

end Check

namespace Sample

/-- The precompile's instruction before one that accepts the work. -/
def acceptingPlan : InstructionPlan :=
  .new "submit_receipt" programId
    [{ programId := ed25519ProgramId, accounts := [], data := [] },
      { programId, accounts := [.newReadonly buyer true],
        data := [InstructionKind.acceptWork.asU8] }] [buyer] none

theorem accepting_plan_passes :
    validatePlanInstructions acceptingPlan programId 0 = .ok () ∧
      ¬ AllowedPlan acceptingPlan programId 0 := by
  have hixs : acceptingPlan.toSolanaInstructions = .ok
      [{ programId := ed25519ProgramId, accounts := [], data := [] },
        { programId, accounts := [.newReadonly buyer true],
          data := [InstructionKind.acceptWork.asU8] }] :=
    InstructionPlan.toSolanaInstructions_new ..
  constructor
  · rw [validatePlanInstructions_eq_ok]
    refine ⟨_, parsePubkey_keyToText programId, nofun, hixs, nofun, ?_, ?_⟩
    · rw [successive_cons, successive_cons]
      exact ⟨.inr ⟨rfl, _, rfl, rfl⟩, .inl rfl, fun i x hx => nomatch hx⟩
    · intro required hrequired
      rw [List.mem_singleton.mp hrequired]
      exact ⟨_, List.mem_cons_of_mem _ List.mem_cons_self, _, List.mem_singleton_self _, rfl, rfl⟩
  · rintro ⟨-, ixs, hixs', hallowed, -⟩
    cases hixs.symm.trans hixs'
    rcases hallowed 0 _ rfl with hprogram | ⟨-, n, hn, -, receipt, hparse⟩
    · exact absurd hprogram (by decide)
    · cases hn
      exact nomatch hparse

end Sample

end AgentBond
