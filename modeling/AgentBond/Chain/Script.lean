import AgentBond.Chain.System
import AgentBond.Runtime.Reference

/-! # Scripted runs

A script is a list of instructions for a ledger. When every one of them
succeeds and only wallets sign, the script is a run of the program. The sample
deployment is a configuration, a provider and a buyer with their token accounts.
-/

namespace AgentBond

open Foundation Protocol

namespace Ledger

/-- No account ever held half a word of lamports. -/
def Light (L : Ledger) : Prop := ∀ e ∈ L.entries, e.2.lamports < 2 ^ 63

instance (L : Ledger) : Decidable L.Light := List.decidableBAll _ _

theorem forall_account {L : Ledger} {p : Account → Prop} (hv : p Account.vacant)
    (h : ∀ e ∈ L.entries, p e.2) (k : Pubkey) : p (L.account k) := by
  cases hl : L.entries.lookup k with
  | none =>
    rw [account, Journal.get, hl]
    exact hv
  | some a =>
    rw [account, Journal.get, hl]
    obtain ⟨l₁, l₂, he, -⟩ := List.lookup_eq_some_iff.mp hl
    exact h (k, a) (he ▸ List.mem_append_right _ List.mem_cons_self)

theorem Light.capitalized {L : Ledger} (h : L.Light) : L.Capitalized := by
  intro a b _
  have ha := forall_account (p := (·.lamports < 2 ^ 63)) (by decide) h a
  have hb := forall_account (p := (·.lamports < 2 ^ 63)) (by decide) h b
  omega

end Ledger

section ThirdParties

variable {P : Platform} {L L' : Ledger} {k : Pubkey} {t t' : TokenAccount}

theorem ThirdParty.of_sameView (h : ∀ k, SameView L L' k) : ThirdParty P L L' where
  owned := fun _ => h _
  assigned := fun {k} ho => Or.inl ((h k).1 ▸ ho)
  unused := fun {k} _ hu => ⟨(h k).1.trans hu.1, (h k).2.trans hu.2⟩
  tokens := fun {k t} ht _ hd _ => ⟨t, (h k).tokenAt_eq.trans ht, rfl, rfl, hd, le_rfl⟩
  mints := fun {k _} hm _ => (h k).mintAt_eq.trans hm

/-- What an address of the program holds in a token account is left there. -/
theorem ThirdParty.setToken_of_kept (ht : L.tokenAt k = some t)
    (hkept : P.Pda t.owner → t'.mint = t.mint ∧ t'.owner = t.owner ∧ t'.delegate = t.delegate ∧
      t.amount ≤ t'.amount) : ThirdParty P L (Reference.setToken L k t') := by
  have howner := Ledger.owner_of_tokenAt ht
  have hother : ∀ i, i ≠ k → SameView L (Reference.setToken L k t') i := fun i hi =>
    sameView_of_eq (Reference.account_setToken_of_ne hi)
  constructor
  · intro i hi
    exact hother i fun he => P.programId_ne_token (hi.symm.trans (he ▸ howner))
  · intro i hi
    exact Or.inl (Reference.owner_setToken.symm.trans hi)
  · intro i _ hu
    have hik : i ≠ k := fun he => by
      rw [he] at hu
      exact absurd (hu.1.symm.trans howner) (by decide)
    exact ⟨(hother i hik).1.trans hu.1, (hother i hik).2.trans hu.2⟩
  · intro i u hu hp hd _
    by_cases hik : i = k
    · subst hik
      obtain rfl := Option.some.inj (ht.symm.trans hu)
      obtain ⟨hmint, howner', hdelegate, hle⟩ := hkept hp
      refine ⟨t', ?_, hmint, howner', hdelegate.trans hd, hle⟩
      rw [Reference.tokenAt_setToken howner, Function.update_self]
    · exact ⟨u, (hother i hik).tokenAt_eq.trans hu, rfl, rfl, hd, le_rfl⟩
  · intro i m hm _
    have hik : i ≠ k := fun he => by
      rw [he, Ledger.mintAt_of_tokenAt ht] at hm
      cases hm
    exact (hother i hik).mintAt_eq.trans hm

theorem ThirdParty.setToken (ht : L.tokenAt k = some t) (hw : ¬ P.Pda t.owner) :
    ThirdParty P L (Reference.setToken L k t') :=
  .setToken_of_kept ht fun hp => absurd hp hw

theorem ThirdParty.sendToken (ht : L.tokenAt k = some t) (n : ℕ) :
    ThirdParty P L (Reference.setToken L k { t with amount := t.amount + n }) :=
  .setToken_of_kept ht fun _ => ⟨rfl, rfl, rfl, Nat.le_add_right ..⟩

end ThirdParties

section Scripts

variable (P : Platform)

abbrev Script := List (Ctx × List UInt8)

def next (L : Ledger) (x : Ctx × List UInt8) : Ledger :=
  match process P x.1 L x.2 with
  | .ok (L', _) => L'
  | .error _ => L

/-- The ledger after a script. -/
def play (L : Ledger) (script : Script) : Ledger := script.foldl (next P) L

/-- The transitions of a script. -/
def transitions (L : Ledger) : Script → List (Transition Ledger Action)
  | [] => []
  | x :: script => ⟨L, .instruction x.1 x.2, next P L x⟩ :: transitions (next P L x) script

/-- Every instruction succeeds, signed by wallets. -/
def Playable (wallets : List Pubkey) (L : Ledger) : Script → Prop
  | [] => True
  | x :: script => (process P x.1 L x.2).isOk = true ∧
      (∀ m ∈ x.1.accounts, m.isSigner = true → m.key ∈ wallets) ∧ (next P L x).Light ∧
      Playable wallets (next P L x) script

instance decidablePlayable (wallets : List Pubkey) :
    ∀ (L : Ledger) (script : Script), Decidable (Playable P wallets L script)
  | _, [] => inferInstanceAs (Decidable True)
  | L, x :: script =>
    let _ := decidablePlayable wallets (next P L x) script
    inferInstanceAs (Decidable (_ ∧ _ ∧ _ ∧ Playable P wallets (next P L x) script))

variable {P} {wallets : List Pubkey} {L : Ledger}

/-- A playable script is a run of the program. -/
theorem run_of_playable (hw : ∀ k ∈ wallets, ¬ P.Pda k) {script : Script}
    (h : Playable P wallets L script) :
    Run (ChainStep P) L (transitions P L script) (play P L script) := by
  induction script generalizing L with
  | nil => rfl
  | cons x script ih =>
    obtain ⟨hok, hsigners, hlight, hrest⟩ := h
    refine ⟨rfl, ?_, ih hrest⟩
    have hnext : ∃ ev, process P x.1 L x.2 = .ok (next P L x, ev) := by
      rw [next]
      cases hp : process P x.1 L x.2 with
      | error e => rw [hp] at hok; cases hok
      | ok r => exact ⟨r.2, rfl⟩
    obtain ⟨ev, hev⟩ := hnext
    exact .instruction (fun m hm hs => hw _ (hsigners m hm hs)) hev hlight.capitalized

theorem Playable.of_append {script script' : Script}
    (h : Playable P wallets L (script ++ script')) : Playable P wallets L script := by
  induction script generalizing L with
  | nil => trivial
  | cons x script ih =>
    obtain ⟨hok, hsigners, hlight, hrest⟩ := h
    exact ⟨hok, hsigners, hlight, ih hrest⟩

theorem step_of_playable (hw : ∀ k ∈ wallets, ¬ P.Pda k) {x : Ctx × List UInt8}
    (h : Playable P wallets L [x]) : ChainStep P L (.instruction x.1 x.2) (next P L x) :=
  (run_of_playable hw h).2.1

theorem transitions_append (script script' : Script) : transitions P L (script ++ script') =
    transitions P L script ++ transitions P (play P L script) script' := by
  induction script generalizing L with
  | nil => rfl
  | cons x script ih => simp only [List.cons_append, transitions, ih, play, List.foldl_cons]

theorem label_of_mem_transitions {script : Script} {x : Transition Ledger Action}
    (h : x ∈ transitions P L script) : ∃ y ∈ script, x.label = .instruction y.1 y.2 := by
  induction script generalizing L with
  | nil => cases h
  | cons y script ih =>
    rcases List.mem_cons.mp h with rfl | h
    · exact ⟨y, List.mem_cons_self, rfl⟩
    · obtain ⟨z, hz, hlabel⟩ := ih h
      exact ⟨z, List.mem_cons_of_mem _ hz, hlabel⟩

theorem mem_transitions_last (script : Script) (x : Ctx × List UInt8) :
    ⟨play P L script, .instruction x.1 x.2, play P L (script ++ [x])⟩ ∈
      transitions P L (script ++ [x]) := by
  rw [transitions_append, play, play, List.foldl_append]
  exact List.mem_append_right _ List.mem_cons_self

end Scripts

namespace Sample

def key (n : UInt8) : Pubkey := List.Vector.replicate 32 n

def programId : Pubkey := key 1
def admin : Pubkey := key 10
def provider : Pubkey := key 11
def buyer : Pubkey := key 12
def executionKey : Pubkey := key 13
def mint : Pubkey := key 14
def configKey : Pubkey := key 20
def providerKey : Pubkey := key 21
def bondKey : Pubkey := key 22
def jobKey : Pubkey := key 23
def challengeKey : Pubkey := key 24
def vault : Pubkey := key 30
def escrow : Pubkey := key 31
def providerToken : Pubkey := key 32
def buyerToken : Pubkey := key 33

def wallets : List Pubkey := [admin, provider, buyer]

def derived (seeds : Seeds) (a : Pubkey) : (List UInt8 × Pubkey) × Pubkey :=
  (((seeds ++ [[255]]).flatten, programId), a)

def associated (wallet a : Pubkey) : (List UInt8 × Pubkey) × Pubkey :=
  ((([wallet.toList, tokenProgramId.toList, mint.toList] ++ [[255]]).flatten,
    associatedTokenProgramId), a)

def table : AddressTable :=
  [derived configSeedParts configKey, derived (providerSeedParts provider) providerKey,
    derived (bondSeedParts provider mint) bondKey, derived (jobSeedParts buyer provider 7) jobKey,
    derived (challengeSeedParts jobKey) challengeKey, associated bondKey vault,
    associated jobKey escrow, associated provider providerToken, associated buyer buyerToken]

def digest (_message : List UInt8) : Pubkey := key 40

def platform : Platform :=
  referencePlatform programId (by decide) (by decide) table digest

theorem collisionFree {derived : Seeds → Prop} : platform.CollisionFree derived :=
  Reference.collisionFree (by decide)

section Addresses

variable {t : AddressTable}

theorem not_pda_of_notMem {k : Pubkey} (h : k ∉ t.map Prod.snd) :
    ¬ (referencePlatform programId (by decide) (by decide) t digest).Pda k := by
  rintro ⟨seeds, hk⟩
  obtain ⟨l₁, l₂, he, -⟩ := List.lookup_eq_some_iff.mp hk
  have hmem : ((seeds.flatten, programId), k) ∈ t := by
    rw [he]
    exact List.mem_append_right _ List.mem_cons_self
  exact h (List.mem_map.mpr ⟨_, hmem, rfl⟩)

theorem not_pda_of_wallets (h : (wallets.all fun k => k ∉ t.map Prod.snd) = true) :
    ∀ k ∈ wallets, ¬ (referencePlatform programId (by decide) (by decide) t digest).Pda k := by
  intro k hk
  exact not_pda_of_notMem (of_decide_eq_true (List.all_eq_true.mp h k hk))

theorem genesis_of_table {L : Ledger} (hblank : ∀ e ∈ L.entries, e.2.owner ≠ programId)
    (hunused : ∀ e ∈ t, e.1.2 = programId → (L.account e.2).Unused) (hlight : L.Light) :
    Genesis (referencePlatform programId (by decide) (by decide) t digest) L where
  blank := by
    intro k ho
    have hne : (L.account k).owner ≠ programId :=
      Ledger.forall_account (p := (·.owner ≠ programId)) (by decide) hblank k
    exact absurd ho hne
  unused := by
    rintro k ⟨seeds, hk⟩
    obtain ⟨l₁, l₂, he, -⟩ := List.lookup_eq_some_iff.mp hk
    exact hunused _ (he ▸ List.mem_append_right _ List.mem_cons_self) rfl
  capitalized := hlight.capitalized

end Addresses

theorem not_pda_of_wallet : ∀ k ∈ wallets, ¬ platform.Pda k :=
  not_pda_of_wallets (by decide)

def wallet : Account := { Account.vacant with lamports := 10 ^ 9 }

def tokenAccount (owner : Pubkey) (amount : ℕ) : Account :=
  { lamports := 2039280, owner := tokenProgramId,
    data := .token { mint, owner, amount, delegate := none, frozen := false } }

/-- The ledger before the program ran: wallets, a mint and the token accounts. -/
def ledger : Ledger :=
  ⟨[(admin, wallet), (provider, wallet), (buyer, wallet),
    (mint, { lamports := 1461600, owner := tokenProgramId,
             data := .mint { decimals := 6, isInitialized := true } }),
    (vault, tokenAccount bondKey 0), (escrow, tokenAccount jobKey 0),
    (providerToken, tokenAccount provider 500), (buyerToken, tokenAccount buyer 1000)]⟩

theorem genesis : Genesis platform ledger :=
  genesis_of_table (by decide) (by decide) (by decide)

def signer (k : Pubkey) : AccountMeta := .new k true

def writable (k : Pubkey) : AccountMeta := .new k false

def readonly (k : Pubkey) : AccountMeta := .newReadonly k false

/-- A call with the given accounts at the given time, alone in its transaction. -/
def call (now : Int64) (instruction : Instruction) (accounts : List AccountMeta) :
    Ctx × List UInt8 :=
  ({ accounts, now, instructions := [], currentIndex := 0 },
    instruction.kind.asU8 :: instruction.payload)

def config : ConfigAccount :=
  { bump := 255, paused := false, admin, genesisHash := key 60, allowedMint := mint,
    tokenProgram := tokenProgramId, mintDecimals := 6, minProviderBond := 50,
    challengeDurationSeconds := 1000 }

def terms : CreateJobPayload :=
  { jobNonce := 7, amount := 300, requestHash := key 50, fundDeadline := 100,
    acceptDeadline := 200, workDeadline := 300, autoSettleDeadline := 400 }

/-- The job as it is created. -/
def job : JobAccount := terms.job config 255 buyer provider

def acceptedJob : JobAccount := { job with state := .accepted, lockedBond := 50 }

def submittedJob : JobAccount := { acceptedJob with state := .submitted, receiptDigest := key 40 }

def receipt : AgentBondWorkReceiptV1 :=
  { programId, genesisHash := key 60, job := jobKey, buyer, provider, requestHash := key 50,
    resultHash := key 51, artifactHash := key 52, softwareHash := key 53, jobNonce := 7,
    createdAt := 35, expiresAt := 1000 }

/-- The precompile instruction that carries the signed receipt: offsets, key, signature, message. -/
def ed25519Data : List UInt8 :=
  [[1, 0], leBytes 2 48, [255, 255], leBytes 2 16, [255, 255], leBytes 2 112, leBytes 2 334,
    [255, 255], executionKey.toList, List.replicate 64 0, receipt.bytes].flatten

/-- Configure the program, register the provider with an execution key and deposit its bond. -/
def setup : Script :=
  [call 1 (.initializeConfig
      { genesisHash := key 60, allowedMint := mint, tokenProgram := tokenProgramId,
        mintDecimals := 6, minProviderBond := 50, challengeDurationSeconds := 1000 })
      [signer admin, writable configKey, readonly systemProgramId],
    call 2 .registerProvider
      [signer provider, readonly configKey, writable providerKey, readonly systemProgramId],
    call 3 (.addExecutionKey executionKey) [signer provider, writable providerKey],
    call 4 (.depositBond 120)
      [signer provider, readonly configKey, readonly providerKey, writable bondKey,
        writable vault, writable providerToken, readonly mint, readonly tokenProgramId,
        readonly systemProgramId]]

/-- Create a job on the terms, fund it and accept it. -/
def engage (now : Int64) (terms : CreateJobPayload) : Script :=
  [call now (.createJob terms)
      [signer buyer, readonly configKey, readonly providerKey, writable jobKey,
        readonly systemProgramId],
    call now .fundJob
      [signer buyer, readonly configKey, writable jobKey, writable buyerToken, writable escrow,
        readonly mint, readonly tokenProgramId],
    call now .acceptJob
      [signer provider, readonly configKey, readonly providerKey, writable bondKey,
        writable jobKey]]

/-- Submit the signed receipt. -/
def submit (now : Int64) : Ctx × List UInt8 :=
  ({ accounts := [readonly configKey, readonly providerKey, writable jobKey,
       readonly instructionsSysvarId],
     now, instructions := [(ed25519ProgramId, ed25519Data)], currentIndex := 1 },
    (Instruction.submitReceipt receipt).kind.asU8 :: (Instruction.submitReceipt receipt).payload)

def settle : Ctx × List UInt8 :=
  call 50 .acceptWork
    [signer buyer, writable jobKey, writable bondKey, writable escrow, writable providerToken,
      writable buyerToken, readonly mint, readonly tokenProgramId]

def close : Ctx × List UInt8 :=
  call 60 .closeJob [signer buyer, writable jobKey, writable buyer]

/-- The ledgers with a job that waits for its receipt and with one that has it. -/
def acceptedLedger : Ledger := play platform ledger (setup ++ engage 10 terms)

/-- The life of the sample job up to its receipt. -/
def submission : Script := setup ++ engage 10 terms ++ [submit 40]

def submittedLedger : Ledger := play platform ledger submission

def settledLedger : Ledger := play platform ledger (submission ++ [settle])

theorem run_of_script {script : Script} (h : Playable platform wallets ledger script) :
    Run (ChainStep platform) ledger (transitions platform ledger script)
      (play platform ledger script) :=
  run_of_playable not_pda_of_wallet h

theorem playable_life : Playable platform wallets ledger (submission ++ [settle] ++ [close]) := by
  decide +kernel

theorem playable_settlement : Playable platform wallets ledger (submission ++ [settle]) :=
  playable_life.of_append

theorem playable_submission : Playable platform wallets ledger submission :=
  playable_settlement.of_append

theorem playable_engagement : Playable platform wallets ledger (setup ++ engage 10 terms) :=
  playable_submission.of_append

theorem reached_engaged (n : ℕ) :
    Reached platform (play platform ledger (setup ++ (engage 10 terms).take n)) := by
  have hengaged : Playable platform wallets ledger
      (setup ++ (engage 10 terms).take n ++ (engage 10 terms).drop n) := by
    rw [List.append_assoc, List.take_append_drop]
    exact playable_engagement
  exact .of_run genesis (run_of_script hengaged.of_append)

theorem reached_acceptedLedger : Reached platform acceptedLedger :=
  .of_run genesis (run_of_script playable_engagement)

theorem reached_submittedLedger : Reached platform submittedLedger :=
  .of_run genesis (run_of_script playable_submission)

theorem reached_settledLedger : Reached platform settledLedger :=
  .of_run genesis (run_of_script playable_settlement)

/-- A token account of the sample mint that nobody else can spend from. -/
def holding (owner : Pubkey) (amount : ℕ) : TokenAccount :=
  { mint, owner, amount, delegate := none, frozen := false }

theorem ordinary_holding (owner : Pubkey) (amount : ℕ) :
    (holding owner amount).Ordinary mint owner :=
  ⟨rfl, rfl, rfl, rfl⟩

-- The kernel replays a script once for all that is read off the ledger it ends in.

theorem views_acceptedLedger :
    acceptedLedger.recordAt platform.programId jobKey = some (.job acceptedJob) ∧
      acceptedLedger.recordAt platform.programId bondKey = some (.bond
        { bump := 255, provider, mint, tokenProgram := tokenProgramId, deposited := 120,
          locked := 50 }) ∧
      acceptedLedger.tokenAt escrow = some (holding jobKey 300) ∧
      acceptedLedger.tokenAt buyerToken = some (holding buyer 700) := by
  decide +kernel

theorem views_submittedLedger :
    submittedLedger.recordAt platform.programId jobKey = some (.job submittedJob) ∧
      submittedLedger.recordAt platform.programId configKey = some (.config config) ∧
      submittedLedger.tokenAt escrow = some (holding jobKey 300) ∧
      submittedLedger.tokenAt providerToken = some (holding provider 380) ∧
      submittedLedger.tokenAt buyerToken = some (holding buyer 700) := by
  decide +kernel

theorem job_at_submittedLedger :
    submittedLedger.recordAt platform.programId jobKey = some (.job submittedJob) :=
  views_submittedLedger.1

end Sample

end AgentBond
