import AgentBond.Types.Accounts

/-! # Account codecs

Decoding an encoded record gives the record back, encodings have the length of
their kind, and a decoder accepts only data that starts with the discriminator
of its kind.
-/

namespace AgentBond

open Foundation

theorem ConfigAccount.decode_encode (c : ConfigAccount) : decode c.encode = .ok c := by
  simp [decode, encode, requireLen, requireHeader, readPubkey, readU64, readI64, configAccountLen,
    slice_cons, slice_skip, slice_field, slice_last, byteAt_cons, byteAt_skip]

theorem JobAccount.decode_encode (j : JobAccount) : decode j.encode = .ok j := by
  simp [decode, encode, requireLen, requireHeader, readPubkey, readU64, readI64, jobAccountLen,
    slice_cons, slice_skip, slice_field, byteAt_cons, byteAt_skip]

theorem ProviderAccount.decode_of_encode {p : ProviderAccount} {data : List UInt8}
    (h : p.encode = .ok data) : decode data = .ok p := by
  obtain ⟨bump, status, authority, count, ⟨ks, hks⟩⟩ := p
  obtain ⟨k₀, k₁, k₂, k₃, rfl⟩ : ∃ k₀ k₁ k₂ k₃, ks = [k₀, k₁, k₂, k₃] := by
    match ks, hks with
    | [k₀, k₁, k₂, k₃], _ => exact ⟨k₀, k₁, k₂, k₃, rfl⟩
  simp only [encode, ensure_bind_eq_ok, Except.ok.injEq] at h
  obtain ⟨hs, hc, rfl⟩ := h
  have h₀ : List.Vector.get ⟨[k₀, k₁, k₂, k₃], hks⟩ 0 = k₀ := rfl
  have h₁ : List.Vector.get ⟨[k₀, k₁, k₂, k₃], hks⟩ 1 = k₁ := rfl
  have h₂ : List.Vector.get ⟨[k₀, k₁, k₂, k₃], hks⟩ 2 = k₂ := rfl
  have h₃ : List.Vector.get ⟨[k₀, k₁, k₂, k₃], hks⟩ 3 = k₃ := rfl
  simp [decode, requireLen, requireHeader, readPubkey, providerAccountLen, slice_cons, slice_skip,
    slice_field, slice_last, byteAt_cons, byteAt_skip, hs, hc, h₀, h₁, h₂, h₃]

theorem ProviderBondAccount.decode_of_encode {b : ProviderBondAccount} {data : List UInt8}
    (h : b.encode = .ok data) : decode data = .ok b := by
  simp only [encode, ensure_bind_eq_ok, Except.ok.injEq] at h
  obtain ⟨hl, rfl⟩ := h
  simp [decode, requireLen, requireHeader, readPubkey, readU64, providerBondAccountLen, slice_cons,
    slice_skip, slice_field, slice_last, byteAt_cons, hl]

theorem ChallengeAccount.decode_of_encode {c : ChallengeAccount} {data : List UInt8}
    (h : c.encode = .ok data) : decode data = .ok c := by
  obtain ⟨bump, status, job, buyer, reasonHash, bondAmount, deadline⟩ := c
  simp only [encode, ensure_bind_eq_ok, Except.ok.injEq] at h
  obtain ⟨hs, rfl, rfl⟩ := h
  simp [decode, requireLen, requireHeader, readPubkey, readU64, readI64, challengeAccountLen,
    slice_cons, slice_skip, slice_field, slice_last, byteAt_cons, hs]

section Header

variable {data : List UInt8}

theorem of_requireHeader {d : UInt8} {n : ℕ} {α : Type} {r : Except ProtocolError α} {a : α}
    (h : (do requireLen data n; requireHeader data d; r) = .ok a) :
    data.length = n ∧ byteAt data 0 = d := by
  simp only [requireLen, requireHeader, bind_eq_ok, ensure_eq_ok] at h
  obtain ⟨_, hl, _, ⟨_, hd, _⟩, _⟩ := h
  exact ⟨hl, hd⟩

theorem ConfigAccount.of_decode {c : ConfigAccount} (h : decode data = .ok c) :
    data.length = configAccountLen ∧ byteAt data 0 = configAccountDiscriminator :=
  of_requireHeader h

theorem ProviderAccount.of_decode {p : ProviderAccount} (h : decode data = .ok p) :
    data.length = providerAccountLen ∧ byteAt data 0 = providerAccountDiscriminator :=
  of_requireHeader h

theorem ProviderBondAccount.of_decode {b : ProviderBondAccount} (h : decode data = .ok b) :
    data.length = providerBondAccountLen ∧ byteAt data 0 = providerBondAccountDiscriminator :=
  of_requireHeader h

theorem JobAccount.of_decode {j : JobAccount} (h : decode data = .ok j) :
    data.length = jobAccountLen ∧ byteAt data 0 = jobAccountDiscriminator :=
  of_requireHeader h

theorem ChallengeAccount.of_decode {c : ChallengeAccount} (h : decode data = .ok c) :
    data.length = challengeAccountLen ∧ byteAt data 0 = challengeAccountDiscriminator :=
  of_requireHeader h

theorem ProviderAccount.count_of_decode {p : ProviderAccount} (h : decode data = .ok p) :
    p.executionKeyCount.toNat ≤ maxExecutionKeys := by
  simp only [decode, bind_eq_ok, ensure_eq_ok, exists_const, Except.ok.injEq] at h
  obtain ⟨_, -, _, -, -, hcount, _, -, _, -, _, -, _, -, _, -, rfl⟩ := h
  exact hcount

theorem ChallengeAccount.bond_of_decode {c : ChallengeAccount} (h : decode data = .ok c) :
    c.bondAmount = 0 := by
  simp only [decode, bind_eq_ok, ensure_eq_ok, exists_const, Except.ok.injEq] at h
  obtain ⟨_, -, _, -, -, _, -, _, -, _, -, _, -, _, -, hbond, rfl⟩ := h
  exact hbond

end Header

end AgentBond
