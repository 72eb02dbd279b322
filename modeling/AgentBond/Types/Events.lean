import AgentBond.Types.Accounts

/-! # Protocol events

The log record every successful instruction emits, and its byte layout. The
layout leaves no byte free: every record has one encoding.
-/

namespace AgentBond

open Foundation

def eventVersion : UInt8 := 1

def eventEncodedLen : ℕ := 82

inductive ProtocolEventKind
  | configInitialized | pauseChanged | providerRegistered | executionKeyAdded
  | executionKeyRevoked | bondDeposited | bondWithdrawn | jobCreated | jobFunded | jobAccepted
  | receiptSubmitted | jobChallenged | jobSettled | jobRefunded | jobExpired | jobSlashed
  | jobClosed
  deriving DecidableEq, Repr

namespace ProtocolEventKind

def asU8 : ProtocolEventKind → UInt8
  | configInitialized => 1
  | pauseChanged => 2
  | providerRegistered => 3
  | executionKeyAdded => 4
  | executionKeyRevoked => 5
  | bondDeposited => 6
  | bondWithdrawn => 7
  | jobCreated => 8
  | jobFunded => 9
  | jobAccepted => 10
  | receiptSubmitted => 11
  | jobChallenged => 12
  | jobSettled => 13
  | jobRefunded => 14
  | jobExpired => 15
  | jobSlashed => 16
  | jobClosed => 17

def fromU8 (value : UInt8) : Except ProtocolError ProtocolEventKind :=
  match value.toNat with
  | 1 => .ok configInitialized
  | 2 => .ok pauseChanged
  | 3 => .ok providerRegistered
  | 4 => .ok executionKeyAdded
  | 5 => .ok executionKeyRevoked
  | 6 => .ok bondDeposited
  | 7 => .ok bondWithdrawn
  | 8 => .ok jobCreated
  | 9 => .ok jobFunded
  | 10 => .ok jobAccepted
  | 11 => .ok receiptSubmitted
  | 12 => .ok jobChallenged
  | 13 => .ok jobSettled
  | 14 => .ok jobRefunded
  | 15 => .ok jobExpired
  | 16 => .ok jobSlashed
  | 17 => .ok jobClosed
  | _ => .error .invalidAccountData

theorem fromU8_asU8 (kind : ProtocolEventKind) : fromU8 kind.asU8 = .ok kind := by
  cases kind <;> rfl

theorem asU8_of_fromU8 {value : UInt8} {kind : ProtocolEventKind} (h : fromU8 value = .ok kind) :
    kind.asU8 = value := by
  apply UInt8.toNat_inj.mp
  unfold fromU8 at h
  split at h <;> cases h <;> exact Eq.symm ‹_›

end ProtocolEventKind

structure ProtocolEvent where
  kind : ProtocolEventKind
  subject : Pubkey
  actor : Pubkey
  amount : UInt64
  timestamp : Int64
  deriving DecidableEq

namespace ProtocolEvent

def encode (e : ProtocolEvent) : List UInt8 :=
  [[eventVersion, e.kind.asU8], e.subject.toList, e.actor.toList, (u64Bytes e.amount).toList,
    (i64Bytes e.timestamp).toList].flatten

def decode (data : List UInt8) : Except ProtocolError ProtocolEvent := do
  requireLen data eventEncodedLen
  ensure (byteAt data 0 = eventVersion) .unsupportedAccountVersion
  let subject ← readPubkey data 2
  let actor ← readPubkey data 34
  let amount ← readU64 data 66
  let timestamp ← readI64 data 74
  let kind ← ProtocolEventKind.fromU8 (byteAt data 1)
  .ok { kind, subject, actor, amount, timestamp }

theorem length_encode (e : ProtocolEvent) : e.encode.length = eventEncodedLen := by
  simp [encode, eventEncodedLen]

theorem head_encode (e : ProtocolEvent) : ∃ rest, e.encode = eventVersion :: rest := ⟨_, rfl⟩

theorem decode_encode (e : ProtocolEvent) : decode e.encode = .ok e := by
  simp [decode, encode, requireLen, eventEncodedLen, readPubkey, readU64, readI64, slice_cons,
    slice_skip, slice_field, slice_last, byteAt_cons, ProtocolEventKind.fromU8_asU8]

theorem encode_of_decode {data : List UInt8} {e : ProtocolEvent} (h : decode data = .ok e) :
    e.encode = data := by
  simp only [decode, requireLen, readPubkey, readU64, readI64, bind_eq_ok, ensure_eq_ok,
    okOr_eq_ok, exists_const, Option.map_eq_some_iff, Except.ok.injEq] at h
  obtain ⟨hl, hv, s, hs, a, ha, _, ⟨m, hm, rfl⟩, _, ⟨t, ht, rfl⟩, k, hk, rfl⟩ := h
  obtain ⟨d₀, d₁, rest, rfl⟩ : ∃ d₀ d₁ rest, data = d₀ :: d₁ :: rest := by
    rcases data with _ | ⟨d₀, _ | ⟨d₁, rest⟩⟩
    · cases hl
    · cases hl
    · exact ⟨d₀, d₁, rest, rfl⟩
  have hend : (d₀ :: d₁ :: rest).drop 82 = [] := List.drop_eq_nil_of_le (Nat.le_of_eq hl)
  have hrest : rest = s.toList ++ (a.toList ++ (m.toList ++ (t.toList ++ []))) := by
    calc rest = (d₀ :: d₁ :: rest).drop 2 := rfl
      _ = _ := by rw [drop_of_slice hs, drop_of_slice ha, drop_of_slice hm, drop_of_slice ht, hend]
  have hkind : k.asU8 = d₁ := ProtocolEventKind.asU8_of_fromU8 hk
  have hversion : d₀ = eventVersion := hv
  simp [encode, hkind, hversion, hrest]

theorem decode_eq_ok {data : List UInt8} {e : ProtocolEvent} :
    decode data = .ok e ↔ data = e.encode := by
  constructor
  · exact fun h => (encode_of_decode h).symm
  · rintro rfl
    exact decode_encode e

end ProtocolEvent

end AgentBond
