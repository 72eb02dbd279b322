import AgentBond.Program.Helpers

/-! # The abstract protocol state

What the program is about, without bytes, rent or account flags: the record at
each address, the token accounts and the mints.
-/

namespace AgentBond.Protocol

@[ext] structure State where
  records : Pubkey → Option Record
  tokens : Tokens
  mints : Pubkey → Option MintAccount

namespace State

/-- Store a record at an address. -/
def put (s : State) (k : Pubkey) (r : Record) : State :=
  { s with records := Function.update s.records k (some r) }

/-- Give the record at an address up. -/
def drop (s : State) (k : Pubkey) : State :=
  { s with records := Function.update s.records k none }

/-- Move tokens between two accounts. -/
def pay (s : State) (src dst : Pubkey) (n : ℕ) : State :=
  { s with tokens := s.tokens.move src dst n }

/-- Remove a token account. -/
def removeToken (s : State) (k : Pubkey) : State :=
  { s with tokens := Function.update s.tokens k none }

/-- An account the program would accept, with its balance. -/
def Holds (s : State) (k mint owner : Pubkey) (n : ℕ) : Prop :=
  ∃ t, s.tokens k = some t ∧ t.Ordinary mint owner ∧ t.amount = n

variable {s : State} {k i src dst : Pubkey} {r : Record} {n : ℕ}

@[simp] theorem records_put_self : (s.put k r).records k = some r := Function.update_self ..

theorem records_put_of_ne (h : i ≠ k) : (s.put k r).records i = s.records i :=
  Function.update_of_ne h ..

@[simp] theorem tokens_put : (s.put k r).tokens = s.tokens := rfl

@[simp] theorem mints_put : (s.put k r).mints = s.mints := rfl

@[simp] theorem records_drop_self : (s.drop k).records k = none := Function.update_self ..

theorem records_drop_of_ne (h : i ≠ k) : (s.drop k).records i = s.records i :=
  Function.update_of_ne h ..

@[simp] theorem tokens_drop : (s.drop k).tokens = s.tokens := rfl

@[simp] theorem mints_drop : (s.drop k).mints = s.mints := rfl

@[simp] theorem records_pay : (s.pay src dst n).records = s.records := rfl

@[simp] theorem tokens_pay : (s.pay src dst n).tokens = s.tokens.move src dst n := rfl

@[simp] theorem mints_pay : (s.pay src dst n).mints = s.mints := rfl

@[simp] theorem records_removeToken : (s.removeToken k).records = s.records := rfl

@[simp] theorem mints_removeToken : (s.removeToken k).mints = s.mints := rfl

@[simp] theorem pay_zero : s.pay src dst 0 = s := by
  simp only [pay, Tokens.move_zero]

theorem of_records_drop (h : (s.drop k).records i = some r) : i ≠ k ∧ s.records i = some r := by
  by_cases hi : i = k
  · subst hi; simp at h
  · exact ⟨hi, by rwa [records_drop_of_ne hi] at h⟩

end State

end AgentBond.Protocol
