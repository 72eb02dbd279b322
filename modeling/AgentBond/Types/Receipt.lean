import AgentBond.Types.Accounts

/-! # Work receipts

The signed message of a provider's execution key: a domain, a version, nine
keys and hashes, the job nonce and two timestamps, 334 bytes in all.
-/

namespace AgentBond

open Foundation

/-- The bytes of `AGENTBOND_RECEIPT_V1`. -/
def receiptDomain : Bytes 20 :=
  ⟨[0x41, 0x47, 0x45, 0x4e, 0x54, 0x42, 0x4f, 0x4e, 0x44, 0x5f,
    0x52, 0x45, 0x43, 0x45, 0x49, 0x50, 0x54, 0x5f, 0x56, 0x31], rfl⟩

def receiptVersionV1 : Bytes 2 := ⟨[1, 0], rfl⟩

def receiptEncodedLen : ℕ := 334

structure AgentBondWorkReceiptV1 where
  programId : Pubkey
  genesisHash : Pubkey
  job : Pubkey
  buyer : Pubkey
  provider : Pubkey
  requestHash : Pubkey
  resultHash : Pubkey
  artifactHash : Pubkey
  softwareHash : Pubkey
  jobNonce : UInt64
  createdAt : Int64
  expiresAt : Int64
  deriving DecidableEq

namespace AgentBondWorkReceiptV1

def validate (r : AgentBondWorkReceiptV1) : Except ProtocolError Unit :=
  ensure (r.createdAt ≤ r.expiresAt) .invalidReceiptTimestamps

/-- The message layout. -/
def bytes (r : AgentBondWorkReceiptV1) : List UInt8 :=
  [receiptDomain.toList, receiptVersionV1.toList, r.programId.toList, r.genesisHash.toList,
    r.job.toList, r.buyer.toList, r.provider.toList, r.requestHash.toList, r.resultHash.toList,
    r.artifactHash.toList, r.softwareHash.toList, (u64Bytes r.jobNonce).toList,
    (i64Bytes r.createdAt).toList, (i64Bytes r.expiresAt).toList].flatten

def encode (r : AgentBondWorkReceiptV1) : Except ProtocolError (List UInt8) := do
  r.validate
  .ok r.bytes

def field (data : List UInt8) (offset n : ℕ) : Except ProtocolError (Bytes n) :=
  okOr (slice data offset n) .invalidReceiptLength

def decode (data : List UInt8) : Except ProtocolError AgentBondWorkReceiptV1 := do
  ensure (data.length = receiptEncodedLen) .invalidReceiptLength
  ensure (slice data 0 20 = some receiptDomain) .invalidReceiptDomain
  ensure (slice data 20 2 = some receiptVersionV1) .unsupportedReceiptVersion
  let programId ← field data 22 32
  let genesisHash ← field data 54 32
  let job ← field data 86 32
  let buyer ← field data 118 32
  let provider ← field data 150 32
  let requestHash ← field data 182 32
  let resultHash ← field data 214 32
  let artifactHash ← field data 246 32
  let softwareHash ← field data 278 32
  let jobNonce ← field data 310 8
  let createdAt ← field data 318 8
  let expiresAt ← field data 326 8
  let receipt : AgentBondWorkReceiptV1 :=
    { programId, genesisHash, job, buyer, provider, requestHash, resultHash, artifactHash,
      softwareHash, jobNonce := u64OfBytes jobNonce, createdAt := i64OfBytes createdAt,
      expiresAt := i64OfBytes expiresAt }
  receipt.validate
  .ok receipt

/-- The digest of the message under the given hash function. -/
def digest (sha256 : List UInt8 → Pubkey) (r : AgentBondWorkReceiptV1) :
    Except ProtocolError Pubkey := do
  let encoded ← r.encode
  .ok (sha256 encoded)

theorem length_bytes (r : AgentBondWorkReceiptV1) : r.bytes.length = receiptEncodedLen := by
  simp [bytes, receiptEncodedLen]

theorem encode_eq_ok {r : AgentBondWorkReceiptV1} {data : List UInt8} :
    r.encode = .ok data ↔ r.createdAt ≤ r.expiresAt ∧ r.bytes = data := by
  simp only [encode, validate, ensure_bind_eq_ok, Except.ok.injEq]

theorem decode_of_encode {r : AgentBondWorkReceiptV1} {data : List UInt8}
    (h : r.encode = .ok data) : decode data = .ok r := by
  obtain ⟨hv, rfl⟩ := encode_eq_ok.mp h
  simp only [decode, length_bytes, ensure_bind_eq_ok, true_and]
  simp [bytes, field, validate, slice_skip, slice_field, slice_last, hv]

theorem bytes_injective : Function.Injective bytes := by
  intro r s h
  have hf : ∀ offset n, slice r.bytes offset n = slice s.bytes offset n := fun _ _ => by rw [h]
  obtain ⟨⟩ := r
  obtain ⟨⟩ := s
  have h₀ := hf 22 32
  have h₁ := hf 54 32
  have h₂ := hf 86 32
  have h₃ := hf 118 32
  have h₄ := hf 150 32
  have h₅ := hf 182 32
  have h₆ := hf 214 32
  have h₇ := hf 246 32
  have h₈ := hf 278 32
  have h₉ := congrArg (Option.map u64OfBytes) (hf 310 8)
  have h₁₀ := congrArg (Option.map i64OfBytes) (hf 318 8)
  have h₁₁ := congrArg (Option.map i64OfBytes) (hf 326 8)
  simp [bytes, slice_skip, slice_field, slice_last] at h₀ h₁ h₂ h₃ h₄ h₅ h₆ h₇ h₈ h₉ h₁₀ h₁₁
  simp [*]

end AgentBondWorkReceiptV1

end AgentBond
