import AgentBond.Types.Events
import AgentBond.Types.Record

/-! # Canonical account data

What a decoder accepts is compared with what the encoder writes, field by field
from the front. Every kind but the bond has exactly one encoding of each value;
the decoder of a bond does not look at the byte after the bump.
-/

namespace AgentBond

open Foundation

section Fields

variable {data : List UInt8} {offset : ℕ}

theorem drop_of_readPubkey {k : Pubkey} (h : readPubkey data offset = .ok k) :
    data.drop offset = k.toList ++ data.drop (offset + 32) :=
  drop_of_slice (okOr_eq_ok.mp h)

theorem drop_of_readU64 {x : UInt64} (h : readU64 data offset = .ok x) :
    data.drop offset = (u64Bytes x).toList ++ data.drop (offset + 8) := by
  obtain ⟨v, hv, rfl⟩ := Option.map_eq_some_iff.mp (okOr_eq_ok.mp h)
  rw [u64Bytes_u64OfBytes]
  exact drop_of_slice hv

theorem drop_of_readI64 {x : Int64} (h : readI64 data offset = .ok x) :
    data.drop offset = (i64Bytes x).toList ++ data.drop (offset + 8) := by
  obtain ⟨v, hv, rfl⟩ := Option.map_eq_some_iff.mp (okOr_eq_ok.mp h)
  rw [i64Bytes_i64OfBytes]
  exact drop_of_slice hv

theorem eq_header (data : List UInt8) (h : 4 ≤ data.length) :
    data = byteAt data 0 :: byteAt data 1 :: byteAt data 2 :: byteAt data 3 :: data.drop 4 := by
  calc data = data.drop 0 := rfl
    _ = _ := by
      rw [drop_of_byteAt 0 (by omega), drop_of_byteAt (0 + 1) (by omega),
        drop_of_byteAt (0 + 1 + 1) (by omega), drop_of_byteAt (0 + 1 + 1 + 1) (by omega)]

theorem requireHeader_eq_ok {d : UInt8} {u : Unit} :
    requireHeader data d = .ok u ↔ byteAt data 0 = d ∧ byteAt data 1 = accountLayoutVersion := by
  simp only [requireHeader, bind_eq_ok, ensure_eq_ok, exists_const]

theorem writeBool_of_readBool {b : UInt8} {v : Bool} (h : readBool b = .ok v) :
    writeBool v = b := by
  apply UInt8.toNat_inj.mp
  unfold readBool at h
  split at h <;> cases h <;> exact Eq.symm ‹_›

theorem JobState.asU8_of_fromU8 {b : UInt8} {s : JobState} (h : JobState.fromU8 b = .ok s) :
    s.asU8 = b := by
  apply UInt8.toNat_inj.mp
  unfold JobState.fromU8 at h
  split at h <;> cases h <;> exact Eq.symm ‹_›

end Fields

section Kinds

variable {data : List UInt8}

theorem ConfigAccount.encode_of_decode {c : ConfigAccount} (h : decode data = .ok c) :
    c.encode = data := by
  have hl := (of_decode h).1
  simp only [decode, requireLen, bind_eq_ok, ensure_eq_ok, requireHeader_eq_ok, exists_const,
    Except.ok.injEq] at h
  obtain ⟨-, ⟨h₀, h₁⟩, paused, hpaused, admin, hadmin, genesis, hgenesis, mint, hmint, token,
    htoken, bond, hbond, duration, hduration, rfl⟩ := h
  have hend : data.drop 149 = [] := List.drop_eq_nil_of_le (Nat.le_of_eq hl)
  rw [configAccountLen] at hl
  have hdata := eq_header data (by omega)
  rw [drop_of_readPubkey hadmin, drop_of_readPubkey hgenesis,
    drop_of_readPubkey hmint, drop_of_readPubkey htoken, drop_of_byteAt 132 (by omega),
    drop_of_readU64 hbond, drop_of_readI64 hduration, hend, h₀, h₁] at hdata
  refine Eq.trans ?_ hdata.symm
  simp [encode, writeBool_of_readBool hpaused]

theorem ProviderAccount.encode_of_decode {p : ProviderAccount} (h : decode data = .ok p) :
    p.encode = .ok data := by
  have hl := (of_decode h).1
  simp only [decode, requireLen, bind_eq_ok, ensure_eq_ok, requireHeader_eq_ok, exists_const,
    Except.ok.injEq] at h
  obtain ⟨-, ⟨h₀, h₁⟩, hstatus, hcount, k₀, hk₀, k₁, hk₁, k₂, hk₂, k₃, hk₃, authority, hauthority,
    rfl⟩ := h
  have hend : data.drop 165 = [] := List.drop_eq_nil_of_le (Nat.le_of_eq hl)
  rw [providerAccountLen] at hl
  rw [encode, ensure_bind_eq_ok, ensure_bind_eq_ok]
  refine ⟨hstatus, hcount, congrArg Except.ok ?_⟩
  have hdata := eq_header data (by omega)
  rw [drop_of_readPubkey hauthority, drop_of_byteAt 36 (by omega),
    drop_of_readPubkey hk₀, drop_of_readPubkey hk₁, drop_of_readPubkey hk₂,
    drop_of_readPubkey hk₃, hend, h₀, h₁] at hdata
  refine Eq.trans ?_ hdata.symm
  simp [List.Vector.get]

theorem ProviderBondAccount.encode_of_decode {b : ProviderBondAccount} (h : decode data = .ok b) :
    b.encode = .ok (data.set 3 0) := by
  have hl := (of_decode h).1
  simp only [decode, requireLen, bind_eq_ok, ensure_eq_ok, requireHeader_eq_ok, exists_const,
    Except.ok.injEq] at h
  obtain ⟨-, ⟨h₀, h₁⟩, provider, hprovider, mint, hmint, token, htoken, deposited, hdeposited,
    locked, hlocked, hle, rfl⟩ := h
  have hend : data.drop 116 = [] := List.drop_eq_nil_of_le (Nat.le_of_eq hl)
  rw [providerBondAccountLen] at hl
  rw [encode, ensure_bind_eq_ok]
  refine ⟨hle, congrArg Except.ok ?_⟩
  have hdata := eq_header data (by omega)
  rw [drop_of_readPubkey hprovider, drop_of_readPubkey hmint,
    drop_of_readPubkey htoken, drop_of_readU64 hdeposited, drop_of_readU64 hlocked, hend, h₀,
    h₁] at hdata
  have hset := congrArg (·.set 3 0) hdata
  refine Eq.trans ?_ hset.symm
  simp

theorem JobAccount.encode_of_decode {j : JobAccount} (h : decode data = .ok j) :
    j.encode = data := by
  have hl := (of_decode h).1
  simp only [decode, requireLen, bind_eq_ok, ensure_eq_ok, requireHeader_eq_ok, exists_const,
    Except.ok.injEq] at h
  obtain ⟨-, ⟨h₀, h₁⟩, state, hstate, buyer, hbuyer, provider, hprovider, mint, hmint, token,
    htoken, amount, hamount, nonce, hnonce, fund, hfund, accept, haccept, work, hwork, settle,
    hsettle, digest, hdigest, request, hrequest, locked, hlocked, rfl⟩ := h
  have hend : data.drop 253 = [] := List.drop_eq_nil_of_le (Nat.le_of_eq hl)
  rw [jobAccountLen] at hl
  have hdata := eq_header data (by omega)
  rw [drop_of_readPubkey hbuyer, drop_of_readPubkey hprovider,
    drop_of_readPubkey hmint, drop_of_readPubkey htoken, drop_of_readU64 hamount,
    drop_of_readU64 hnonce, drop_of_readI64 hfund, drop_of_readI64 haccept,
    drop_of_readI64 hwork, drop_of_readI64 hsettle, drop_of_readPubkey hdigest,
    drop_of_readPubkey hrequest, drop_of_readU64 hlocked, drop_of_byteAt 252 (by omega), hend,
    h₀, h₁] at hdata
  refine Eq.trans ?_ hdata.symm
  simp [encode, JobState.asU8_of_fromU8 hstate]

theorem ChallengeAccount.encode_of_decode {c : ChallengeAccount} (h : decode data = .ok c) :
    c.encode = .ok data := by
  have hl := (of_decode h).1
  simp only [decode, requireLen, bind_eq_ok, ensure_eq_ok, requireHeader_eq_ok, exists_const,
    Except.ok.injEq] at h
  obtain ⟨-, ⟨h₀, h₁⟩, hstatus, job, hjob, buyer, hbuyer, reason, hreason, bond, hbond, deadline,
    hdeadline, hzero, rfl⟩ := h
  have hend : data.drop 116 = [] := List.drop_eq_nil_of_le (Nat.le_of_eq hl)
  rw [challengeAccountLen] at hl
  rw [encode, ensure_bind_eq_ok, ensure_bind_eq_ok]
  refine ⟨hstatus, hzero, congrArg Except.ok ?_⟩
  have hdata := eq_header data (by omega)
  rw [drop_of_readPubkey hjob, drop_of_readPubkey hbuyer,
    drop_of_readPubkey hreason, drop_of_readU64 hbond, drop_of_readI64 hdeadline, hend, h₀,
    h₁] at hdata
  refine Eq.trans ?_ hdata.symm
  simp

end Kinds

namespace Record

variable {data : List UInt8} {r r' : Record}

/-- The encoder of the record's kind. -/
def encode : Record → Except ProtocolError (List UInt8)
  | config c => .ok c.encode
  | provider p => p.encode
  | bond b => b.encode
  | job j => .ok j.encode
  | challenge c => c.encode

/-- The decoder of the record's kind accepts the data and returns the record. -/
def Reads (data : List UInt8) : Record → Prop
  | config c => ConfigAccount.decode data = .ok c
  | provider p => ProviderAccount.decode data = .ok p
  | bond b => ProviderBondAccount.decode data = .ok b
  | job j => JobAccount.decode data = .ok j
  | challenge c => ChallengeAccount.decode data = .ok c

theorem reads_iff : r.Reads data ↔ decode data = some r := by
  cases r with
  | config c => exact decode_eq_config.symm
  | provider p => exact decode_eq_provider.symm
  | bond b => exact decode_eq_bond.symm
  | job j => exact decode_eq_job.symm
  | challenge c => exact decode_eq_challenge.symm

theorem reads_of_encode (h : r.encode = .ok data) : r.Reads data := by
  cases r with
  | config c =>
    obtain rfl := Except.ok.inj h
    exact ConfigAccount.decode_encode c
  | provider p => exact ProviderAccount.decode_of_encode h
  | bond b => exact ProviderBondAccount.decode_of_encode h
  | job j =>
    obtain rfl := Except.ok.inj h
    exact JobAccount.decode_encode j
  | challenge c => exact ChallengeAccount.decode_of_encode h

/-- What a decoder accepts is encoded again, with the byte after a bond's bump cleared. -/
theorem encode_of_reads (h : r.Reads data) :
    r.encode = .ok (if byteAt data 0 = providerBondAccountDiscriminator then data.set 3 0
      else data) := by
  cases r with
  | config c =>
    rw [(ConfigAccount.of_decode h).2, if_neg (by decide)]
    exact congrArg Except.ok (ConfigAccount.encode_of_decode h)
  | provider p =>
    rw [(ProviderAccount.of_decode h).2, if_neg (by decide)]
    exact ProviderAccount.encode_of_decode h
  | bond b =>
    rw [(ProviderBondAccount.of_decode h).2, if_pos rfl]
    exact ProviderBondAccount.encode_of_decode h
  | job j =>
    rw [(JobAccount.of_decode h).2, if_neg (by decide)]
    exact congrArg Except.ok (JobAccount.encode_of_decode h)
  | challenge c =>
    rw [(ChallengeAccount.of_decode h).2, if_neg (by decide)]
    exact ChallengeAccount.encode_of_decode h

end Record

/-- What is encoded is decoded again, for the five accounts and the event, and no two account
types share a byte string. -/
theorem codecs_round_trip :
    (∀ (r : Record) (data : List UInt8), r.encode = .ok data → r.Reads data) ∧
      (∀ e : ProtocolEvent, ProtocolEvent.decode e.encode = .ok e) ∧
      ∀ (r r' : Record) (data : List UInt8), r.Reads data → r'.Reads data → r = r' := by
  refine ⟨fun r data => Record.reads_of_encode, ProtocolEvent.decode_encode, ?_⟩
  intro r r' data h h'
  rw [Record.reads_iff] at h h'
  exact Option.some.inj (h.symm.trans h')

theorem Record.length_of_reads {data : List UInt8} {r : Record} (h : r.Reads data) :
    116 ≤ data.length := by
  cases r with
  | config c => exact (ConfigAccount.of_decode h).1 ▸ by decide
  | provider p => exact (ProviderAccount.of_decode h).1 ▸ by decide
  | bond b => exact (ProviderBondAccount.of_decode h).1 ▸ by decide
  | job j => exact (JobAccount.of_decode h).1 ▸ by decide
  | challenge c => exact (ChallengeAccount.of_decode h).1 ▸ by decide

theorem set_eq_self_iff {data : List UInt8} {i : ℕ} {b : UInt8} (h : i < data.length) :
    data.set i b = data ↔ byteAt data i = b := by
  constructor
  · intro he
    rw [← he]
    simp [byteAt, h]
  · rintro rfl
    simp [byteAt, h]

/-- Accepted data is the encoding of what it is decoded to exactly when it is no bond's, or has a
zero after the bump. -/
theorem canonical_iff {data : List UInt8} {r : Record} (h : r.Reads data) :
    r.encode = .ok data ↔
      (byteAt data 0 = providerBondAccountDiscriminator → byteAt data 3 = 0) := by
  have hlen := Record.length_of_reads h
  rw [Record.encode_of_reads h, Except.ok.injEq]
  split
  · rename_i hbond
    rw [set_eq_self_iff (by omega)]
    exact ⟨fun h3 _ => h3, fun h3 => h3 hbond⟩
  · rename_i hbond
    exact ⟨fun _ hd => absurd hd hbond, fun _ => rfl⟩

namespace Sample

/-- A bond with a one after its bump. -/
def markedBond : List UInt8 :=
  [[3, 1, 253, 1], zeroKey.toList, zeroKey.toList, zeroKey.toList, (u64Bytes 1000).toList,
    (u64Bytes 250).toList].flatten

def readBond : ProviderBondAccount :=
  { bump := 253, provider := zeroKey, mint := zeroKey, tokenProgram := zeroKey, deposited := 1000,
    locked := 250 }

theorem reads_markedBond : (Record.bond readBond).Reads markedBond := by
  show ProviderBondAccount.decode markedBond = .ok readBond
  decide

theorem canonical_iff_marked :
    (Record.bond readBond).encode = .ok markedBond ↔
      (byteAt markedBond 0 = providerBondAccountDiscriminator → byteAt markedBond 3 = 0) :=
  canonical_iff reads_markedBond

/-- A bond is accepted that no encoder writes: its reserved byte is lost when it is saved. -/
theorem reserved_byte_ignored :
    ¬ ∀ (data : List UInt8) (r : Record), r.Reads data → r.encode = .ok data := by
  intro h
  have hencode := h markedBond (.bond readBond) reads_markedBond
  have hne : readBond.encode ≠ .ok markedBond := by decide +kernel
  exact hne hencode

end Sample

end AgentBond
