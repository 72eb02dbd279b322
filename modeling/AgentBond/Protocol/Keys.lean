import AgentBond.Foundation.Packed
import AgentBond.Protocol.Records

/-! # The execution keys of a provider

The slots of a provider account hold a finite set of at most four keys. Adding a
key inserts it, revoking a key erases it, and the lookup is membership.
-/

namespace AgentBond.ProviderAccount

open Foundation

variable {p p' : ProviderAccount} {k : Pubkey}

/-- The slots in use hold the keys, once each and never the zero key; the others are zero. -/
abbrev KeysPacked (p : ProviderAccount) : Prop :=
  Packed zeroKey p.executionKeys.toList p.executionKeyCount.toNat

/-- The execution keys of a provider. -/
def keySet (p : ProviderAccount) : Finset Pubkey :=
  Packed.members p.executionKeys.toList p.executionKeyCount.toNat

theorem containsExecutionKey_iff : p.containsExecutionKey k = true ↔ k ∈ p.keySet := by
  rw [keySet, Packed.mem_members, containsExecutionKey, List.any_eq_true]
  simp

theorem KeysPacked.card (h : p.KeysPacked) : p.keySet.card = p.executionKeyCount.toNat :=
  Packed.card_members h

theorem keySlot_of_lt {i : ℕ} (h : i < 4) : (keySlot i : ℕ) = i := Nat.mod_eq_of_lt h

theorem keysPacked_registered (bump : UInt8) (authority : Pubkey) :
    (registered bump authority).KeysPacked := Packed.nil 4

section Add

theorem toNat_succ {n : UInt8} (h : n.toNat < 4) : (n + 1).toNat = n.toNat + 1 := by
  rw [UInt8.toNat_add]
  exact Nat.mod_eq_of_lt (show n.toNat + 1 < 256 by omega)

/-- A key is added exactly when the provider is active, does not have it and has a free slot. -/
theorem addKey_succeeds_iff (hp : p.KeysPacked) (hactive : p.status = providerStatusActive) :
    (∃ p', p.addKey k = .ok p') ↔ k ∉ p.keySet ∧ p.keySet.card < maxExecutionKeys := by
  simp only [addKey, bind_eq_ok, ensure_eq_ok, exists_const, hactive, true_and, hp.card,
    ← containsExecutionKey_iff, Bool.not_eq_true]
  constructor
  · rintro ⟨p', hnew, hroom, -⟩
    exact ⟨hnew, hroom⟩
  · rintro ⟨hnew, hroom⟩
    exact ⟨_, hnew, hroom, rfl⟩

theorem keySet_of_addKey (hp : p.KeysPacked) (hk : k ≠ zeroKey) (h : p.addKey k = .ok p') :
    p'.KeysPacked ∧ p'.keySet = insert k p.keySet ∧ p'.status = p.status := by
  simp only [addKey, bind_eq_ok, ensure_eq_ok, exists_const, Except.ok.injEq] at h
  obtain ⟨-, hnew, hroom, rfl⟩ := h
  have hlt : p.executionKeyCount.toNat < p.executionKeys.toList.length := by
    rw [List.Vector.toList_length]
    exact hroom
  have hnew' : k ∉ p.executionKeys.toList.take p.executionKeyCount.toNat := by
    rw [← Packed.mem_members]
    exact fun hmem => by simp [containsExecutionKey_iff.mpr hmem] at hnew
  have hslots : (p.executionKeys.set (keySlot p.executionKeyCount.toNat) k).toList =
      p.executionKeys.toList.set p.executionKeyCount.toNat k := by
    rw [List.Vector.toList_set, keySlot_of_lt hroom]
  refine ⟨?_, ?_, rfl⟩
  · rw [KeysPacked, hslots, toNat_succ hroom]
    exact hp.insert hlt hk hnew'
  · rw [keySet, hslots, toNat_succ hroom]
    exact Packed.members_insert hlt

end Add

section Revoke

theorem exists_count (h : p.KeysPacked) {i : ℕ} (hi : p.findKey k = some i) :
    ∃ count, p.executionKeyCount.toNat = count + 1 ∧ (p.executionKeyCount - 1).toNat = count ∧
      count < 4 ∧ i ≤ count := by
  rw [findKey, List.findIdx?_eq_some_iff_getElem] at hi
  obtain ⟨hlt, -⟩ := hi
  have hle : p.executionKeyCount.toNat ≤ 4 := by
    have hle := h.le
    rwa [List.Vector.toList_length] at hle
  rw [List.length_take, List.Vector.toList_length] at hlt
  have hone : (1 : UInt8) ≤ p.executionKeyCount := by
    rw [UInt8.le_iff_toNat_le]
    exact show 1 ≤ p.executionKeyCount.toNat by omega
  have hsub : (p.executionKeyCount - 1).toNat = p.executionKeyCount.toNat - 1 :=
    UInt8.toNat_sub_of_le _ _ hone
  exact ⟨p.executionKeyCount.toNat - 1, by omega, hsub, by omega, by omega⟩

theorem revokeKey_succeeds_iff : (∃ p', p.revokeKey k = .ok p') ↔ k ∈ p.keySet := by
  simp only [revokeKey, bind_eq_ok, okOr_eq_ok, keySet, Packed.mem_members]
  constructor
  · rintro ⟨p', i, hi, -⟩
    rw [findKey, List.findIdx?_eq_some_iff_getElem] at hi
    obtain ⟨hlt, hget, -⟩ := hi
    rw [← of_decide_eq_true hget]
    exact List.getElem_mem hlt
  · intro hmem
    cases hi : p.findKey k with
    | none =>
      rw [findKey, List.findIdx?_eq_none_iff] at hi
      exact absurd (hi k hmem) (by simp)
    | some i => exact ⟨_, i, rfl, rfl⟩

theorem keySet_of_revokeKey (hp : p.KeysPacked) (h : p.revokeKey k = .ok p') :
    p'.KeysPacked ∧ p'.keySet = p.keySet.erase k ∧ p'.status = p.status := by
  simp only [revokeKey, bind_eq_ok, okOr_eq_ok, Except.ok.injEq] at h
  obtain ⟨i, hi, rfl⟩ := h
  obtain ⟨count, hcount, hpred, hlt, hle⟩ := exists_count hp hi
  have hslot : p.executionKeys.toList[count]?.getD zeroKey =
      p.executionKeys.get (keySlot count) := by
    have hlen : count < p.executionKeys.toList.length := by
      rwa [List.Vector.toList_length]
    rw [List.getElem?_eq_getElem hlen, Option.getD_some, List.Vector.get_eq_get_toList]
    simp [keySlot_of_lt hlt]
  have hslots : ((p.executionKeys.set (keySlot i) (p.executionKeys.get (keySlot count))).set
      (keySlot count) zeroKey).toList = swapRemove zeroKey p.executionKeys.toList count i := by
    rw [List.Vector.toList_set, List.Vector.toList_set, keySlot_of_lt hlt,
      keySlot_of_lt (hle.trans_lt hlt), swapRemove, hslot]
  rw [KeysPacked, hcount] at hp
  have hfound := hi
  rw [findKey, hcount, List.findIdx?_eq_some_iff_getElem] at hfound
  obtain ⟨hbound, hget, -⟩ := hfound
  rw [hcount, Nat.add_sub_cancel]
  refine ⟨?_, ?_, rfl⟩
  · rw [KeysPacked, hslots, hpred]
    exact hp.remove hle
  · rw [keySet, hslots, hpred, hp.members_remove hbound, of_decide_eq_true hget, keySet, hcount]

end Revoke

end AgentBond.ProviderAccount
