import AgentBond.Runtime.Ledger

/-! # Token movements

Balances as a function of the address, the movement of an amount between two
accounts, and the accounts that secure an obligation: only their owner can take
from them, and they hold at least the amount owed.
-/

namespace AgentBond

/-- What a checked token account is: the expected mint and owner, neither frozen nor delegated. -/
structure TokenAccount.Ordinary (t : TokenAccount) (mint owner : Pubkey) : Prop where
  mint_eq : t.mint = mint
  owner_eq : t.owner = owner
  thawed : t.frozen = false
  undelegated : t.delegate = none

abbrev Tokens := Pubkey → Option TokenAccount

namespace Tokens

variable {tok : Tokens} {k src dst mint owner : Pubkey} {ts td t : TokenAccount} {n m : ℕ}

/-- The balance of an address, zero when there is no token account. -/
def balance (tok : Tokens) (k : Pubkey) : ℕ := ((tok k).map (·.amount)).getD 0

/-- Change the balance of one account and nothing else of it. -/
def adjust (tok : Tokens) (k : Pubkey) (f : ℕ → ℕ) : Tokens :=
  Function.update tok k ((tok k).map fun t => { t with amount := f t.amount })

/-- Take the amount from the source and add it to the destination. -/
def move (tok : Tokens) (src dst : Pubkey) (n : ℕ) : Tokens :=
  (tok.adjust src (· - n)).adjust dst (· + n)

theorem adjust_of_ne {f : ℕ → ℕ} (h : k ≠ src) : tok.adjust src f k = tok k :=
  Function.update_of_ne h ..

theorem adjust_self {f : ℕ → ℕ} (h : tok k = some t) :
    tok.adjust k f k = some { t with amount := f t.amount } := by
  rw [adjust, Function.update_self, h, Option.map_some]

theorem adjust_some {f : ℕ → ℕ} (i : Pubkey) (h : tok i = some t) :
    ∃ n, tok.adjust k f i = some { t with amount := n } := by
  by_cases hi : i = k
  · subst hi; exact ⟨_, adjust_self h⟩
  · exact ⟨t.amount, by rw [adjust_of_ne hi, h]⟩

theorem adjust_none {f : ℕ → ℕ} (i : Pubkey) (h : tok i = none) : tok.adjust k f i = none := by
  by_cases hi : i = k
  · subst hi; rw [adjust, Function.update_self, h, Option.map_none]
  · rw [adjust_of_ne hi, h]

theorem move_of_ne (hs : k ≠ src) (hd : k ≠ dst) : tok.move src dst n k = tok k := by
  rw [move, adjust_of_ne hd, adjust_of_ne hs]

/-- A movement keeps every account, up to its balance. -/
theorem move_some (src dst : Pubkey) (n : ℕ) (i : Pubkey) (h : tok i = some t) :
    ∃ m, tok.move src dst n i = some { t with amount := m } := by
  obtain ⟨m, hm⟩ := adjust_some (k := src) (f := (· - n)) i h
  obtain ⟨m', hm'⟩ := adjust_some (k := dst) (f := (· + n)) i hm
  exact ⟨m', hm'⟩

theorem move_none (i : Pubkey) (h : tok i = none) : tok.move src dst n i = none :=
  adjust_none i (adjust_none i h)

@[simp] theorem move_zero : tok.move src dst 0 = tok := by
  funext i
  cases h : tok i with
  | none => exact move_none i h
  | some t =>
    by_cases hs : i = src
    · subst hs
      have hm : tok.adjust i (· - 0) i = some t := by rw [adjust_self h, Nat.sub_zero]
      by_cases hd : i = dst
      · subst hd; rw [move, adjust_self hm, Nat.add_zero]
      · rw [move, adjust_of_ne hd, hm]
    · by_cases hd : i = dst
      · subst hd
        have hm : tok.adjust src (· - 0) i = some t := by rw [adjust_of_ne hs, h]
        rw [move, adjust_self hm, Nat.add_zero]
      · rw [move_of_ne hs hd, h]

theorem balance_of_some (h : tok k = some t) : tok.balance k = t.amount := by
  simp [balance, h]

/-- Every account is kept, up to a new balance computed from its address and the old one. -/
def Rebalanced (tok : Tokens) (f : Pubkey → ℕ → ℕ) (tok' : Tokens) : Prop :=
  ∀ i, tok' i = (tok i).map fun t => { t with amount := f i t.amount }

theorem rebalanced_adjust (tok : Tokens) (k : Pubkey) (f : ℕ → ℕ) :
    tok.Rebalanced (fun i x => if i = k then f x else x) (tok.adjust k f) := by
  intro i
  by_cases hi : i = k
  · subst hi; simp [adjust]
  · simp [adjust_of_ne hi, hi]

theorem Rebalanced.trans {tok₁ tok₂ : Tokens} {f g : Pubkey → ℕ → ℕ} (h : tok.Rebalanced f tok₁)
    (h' : tok₁.Rebalanced g tok₂) : tok.Rebalanced (fun i x => g i (f i x)) tok₂ := by
  intro i
  rw [h' i, h i, Option.map_map]
  rfl

theorem rebalanced_move : tok.Rebalanced
    (fun i x => (if i = src then x - n else x) + if i = dst then n else 0)
    (tok.move src dst n) := by
  have h := (rebalanced_adjust tok src (· - n)).trans (rebalanced_adjust _ dst (· + n))
  intro i
  rw [move, h i]
  by_cases hi : i = dst <;> simp [hi]

theorem Rebalanced.congr {tok' : Tokens} {f g : Pubkey → ℕ → ℕ} (h : tok.Rebalanced f tok')
    (hfg : ∀ i t, tok i = some t → f i t.amount = g i t.amount) : tok.Rebalanced g tok' := by
  intro i
  rw [h i]
  cases ht : tok i with
  | none => rfl
  | some t => rw [Option.map_some, Option.map_some, hfg i t ht]

/-- The account at the address belongs to the owner alone and holds at least
the amount; when nothing is owed nothing is asked of it. -/
def Secured (tok : Tokens) (k mint owner : Pubkey) (n : ℕ) : Prop :=
  n ≠ 0 → ∃ t, tok k = some t ∧ t.mint = mint ∧ t.owner = owner ∧ t.delegate = none ∧ n ≤ t.amount

theorem Secured.le_balance (h : tok.Secured k mint owner n) : n ≤ tok.balance k := by
  rcases Nat.eq_zero_or_pos n with rfl | hn
  · exact Nat.zero_le _
  · obtain ⟨t, ht, -, -, -, hle⟩ := h hn.ne'
    rwa [balance_of_some ht]

theorem Secured.mono (h : tok.Secured k mint owner n) (hm : m ≤ n) :
    tok.Secured k mint owner m := by
  intro h0
  obtain ⟨t, ht, h1, h2, h3, hle⟩ := h (by omega)
  exact ⟨t, ht, h1, h2, h3, hm.trans hle⟩

theorem Secured.move_of_ne (h : tok.Secured k mint owner n) (hs : tok src = some ts)
    (ho : ts.owner ≠ owner) : (tok.move src dst m).Secured k mint owner n := by
  intro h0
  obtain ⟨t, ht, h1, h2, h3, hle⟩ := h h0
  have hk : k ≠ src := by
    rintro rfl
    rw [hs, Option.some.injEq] at ht
    exact ho (ht ▸ h2)
  by_cases hd : k = dst
  · subst hd
    refine ⟨{ t with amount := t.amount + m }, ?_, h1, h2, h3, by simp; omega⟩
    exact adjust_self (by rw [adjust_of_ne hk, ht])
  · exact ⟨t, by rw [Tokens.move_of_ne hk hd, ht], h1, h2, h3, hle⟩

theorem Secured.credit (h : tok.Secured k mint owner n) (hk : tok k = some t)
    (h1 : t.mint = mint) (h2 : t.owner = owner) (h3 : t.delegate = none) (hs : k ≠ src) :
    (tok.move src k m).Secured k mint owner (n + m) := by
  intro _
  refine ⟨{ t with amount := t.amount + m }, ?_, h1, h2, h3, ?_⟩
  · exact adjust_self (by rw [adjust_of_ne hs, hk])
  · have := h.le_balance
    rw [balance_of_some hk] at this
    simpa using this

theorem Secured.debit (h : tok.Secured k mint owner n) :
    (tok.move k dst m).Secured k mint owner (n - m) := by
  intro h0
  obtain ⟨t, ht, h1, h2, h3, hle⟩ := h (by omega)
  have hs : tok.adjust k (· - m) k = some { t with amount := t.amount - m } := adjust_self ht
  by_cases hd : k = dst
  · subst hd
    refine ⟨{ t with amount := t.amount - m + m }, adjust_self hs, h1, h2, h3, ?_⟩
    simp only
    omega
  · exact ⟨{ t with amount := t.amount - m }, by rw [move, adjust_of_ne hd, hs], h1, h2, h3,
      by simp; omega⟩

theorem Secured.remove_empty (h : tok.Secured k mint owner n) (hs : tok src = some ts)
    (h0 : ts.amount = 0) : Secured (Function.update tok src none) k mint owner n := by
  intro hn
  obtain ⟨t, ht, h1, h2, h3, hle⟩ := h hn
  have hk : k ≠ src := by
    rintro rfl
    rw [hs, Option.some.injEq] at ht
    subst ht
    omega
  exact ⟨t, by rw [Function.update_of_ne hk, ht], h1, h2, h3, hle⟩

end Tokens

end AgentBond
