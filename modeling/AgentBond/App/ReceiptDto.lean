import AgentBond.App.Hex
import AgentBond.Types.Receipt

/-! # Receipts in requests

A receipt comes in a request with its nine keys and hashes in hexadecimal. The
conversion decodes them in order, with a decoder of its own, and is exact if its
fields are digits or one is refused before any pair is cut.
-/

namespace AgentBond

open Foundation Text Panicking

structure ReceiptDto where
  programIdHex : Text
  genesisHashHex : Text
  jobHex : Text
  buyerHex : Text
  providerHex : Text
  requestHashHex : Text
  resultHashHex : Text
  artifactHashHex : Text
  softwareHashHex : Text
  jobNonce : UInt64
  createdAt : Int64
  expiresAt : Int64

namespace ReceiptDto

def hex32 (s : Text) (label : String) : Panicking AppError (Bytes 32) := do
  let s := hexBody s
  if utf8Len s ≠ 64 then throw (.validation (label ++ " must be 32 bytes hex"))
  let out ← (List.range' 0 32).foldlM (fun out i => do
      let byte ← do
        let pair ← str s (i * 2) (i * 2 + 2)
        checked (okOr (parseU8 16 pair) invalidHex)
      assign out i byte) (List.replicate 32 0)
  copy 32 out

def toReceipt (dto : ReceiptDto) : Panicking AppError AgentBondWorkReceiptV1 := do
  let programId ← hex32 dto.programIdHex "program_id"
  let genesisHash ← hex32 dto.genesisHashHex "genesis_hash"
  let job ← hex32 dto.jobHex "job"
  let buyer ← hex32 dto.buyerHex "buyer"
  let provider ← hex32 dto.providerHex "provider"
  let requestHash ← hex32 dto.requestHashHex "request_hash"
  let resultHash ← hex32 dto.resultHashHex "result_hash"
  let artifactHash ← hex32 dto.artifactHashHex "artifact_hash"
  let softwareHash ← hex32 dto.softwareHashHex "software_hash"
  pure { programId, genesisHash, job, buyer, provider, requestHash, resultHash, artifactHash,
         softwareHash, jobNonce := dto.jobNonce, createdAt := dto.createdAt,
         expiresAt := dto.expiresAt }

def fromReceipt (r : AgentBondWorkReceiptV1) : ReceiptDto where
  programIdHex := hex r.programId.toList
  genesisHashHex := hex r.genesisHash.toList
  jobHex := hex r.job.toList
  buyerHex := hex r.buyer.toList
  providerHex := hex r.provider.toList
  requestHashHex := hex r.requestHash.toList
  resultHashHex := hex r.resultHash.toList
  artifactHashHex := hex r.artifactHash.toList
  softwareHashHex := hex r.softwareHash.toList
  jobNonce := r.jobNonce
  createdAt := r.createdAt
  expiresAt := r.expiresAt

/-- The fields in hexadecimal, in the order in which they are decoded, with their labels. -/
def hexFields (dto : ReceiptDto) : List (Text × String) :=
  [(dto.programIdHex, "program_id"), (dto.genesisHashHex, "genesis_hash"), (dto.jobHex, "job"),
    (dto.buyerHex, "buyer"), (dto.providerHex, "provider"), (dto.requestHashHex, "request_hash"),
    (dto.resultHashHex, "result_hash"), (dto.artifactHashHex, "artifact_hash"),
    (dto.softwareHashHex, "software_hash")]

/-- The receipt has the keys and hashes that the fields denote, and the other fields as they
are. -/
def Denotes (dto : ReceiptDto) (r : AgentBondWorkReceiptV1) : Prop :=
  List.Forall₂ (fun field (key : Bytes 32) => Hex (hexBody field.1) key.toList) dto.hexFields
      [r.programId, r.genesisHash, r.job, r.buyer, r.provider, r.requestHash, r.resultHash,
        r.artifactHash, r.softwareHash] ∧
    r.jobNonce = dto.jobNonce ∧ r.createdAt = dto.createdAt ∧ r.expiresAt = dto.expiresAt

section Fields

variable {s : Text} {label : String}

theorem hex32_length (h : utf8Len (hexBody s) ≠ 64) :
    Returns (hex32 s label) (.error (.validation (label ++ " must be 32 bytes hex"))) := by
  rw [hex32, if_pos h]
  exact (returns_throw _).bind_error

theorem hex32_eq (h : utf8Len (hexBody s) = 64) :
    hex32 s label = (do
      let bytes ← readPairs invalidHex (hexBody s) 32
      copy 32 bytes) := by
  have hindex : (List.range' 0 32).map (· * 2) = List.range' 0 32 2 := by decide
  have hloop := foldlM_assign (fun i => pairAt invalidHex (hexBody s) (i * 2)) 0 32 []
  simp only [List.length_nil, List.nil_append, bind_pure, pairAt, bind_assoc] at hloop
  rw [hex32, if_neg (not_not.mpr h), readPairs, ← hindex, List.mapM_map]
  exact congrArg (· >>= copy 32) hloop

theorem hex32_hex {key : Bytes 32} (h : Hex (hexBody s) key.toList) :
    Returns (hex32 s label) (.ok key) := by
  have hlen : utf8Len (hexBody s) = 64 := by rw [utf8Len_of_hex h, key.toList_length]
  rw [hex32_eq hlen]
  exact (readPairs_hex h hlen).bind_ok (returns_copy key)

theorem hex32_ok (label : String) (hlen : utf8Len (hexBody s) = 64)
    (h : PairsThen (· = []) (hexBody s)) :
    ∃ key, Returns (hex32 s label) (.ok key) := by
  have hn : utf8Len (hexBody s) = 2 * 32 := hlen
  obtain ⟨bytes, hbytes⟩ := readPairs_pairs (e := invalidHex) h hn
  have h32 : bytes.length = 32 := (returns_mapM_ok.mp hbytes).length_eq.symm
  rw [hex32_eq hlen]
  exact ⟨⟨bytes, h32⟩, hbytes.bind_ok (returns_copy ⟨bytes, h32⟩)⟩

theorem hex32_error (label : String)
    (h : utf8Len (hexBody s) ≠ 64 ∨ PairsThen Refused (hexBody s)) :
    ∃ text, Returns (hex32 s label) (.error (.validation text)) := by
  by_cases hlen : utf8Len (hexBody s) = 64
  · rw [hex32_eq hlen]
    exact ⟨_, (readPairs_refused (h.resolve_left (not_not.mpr hlen)) hlen).bind_error⟩
  · exact ⟨_, hex32_length hlen⟩

/-- A field is accepted or refused, or a pair of it is cut. -/
theorem hex32_cases (s : Text) (label : String) :
    (utf8Len (hexBody s) = 64 ∧ PairsThen (· = []) (hexBody s)) ∨
      (utf8Len (hexBody s) ≠ 64 ∨ PairsThen Refused (hexBody s)) ∨ Panics (hex32 s label) := by
  by_cases hlen : utf8Len (hexBody s) = 64
  · have hn : utf8Len (hexBody s) = 2 * 32 := hlen
    rcases pairsThen_cases (hexBody s) hn with h | h | h
    · exact .inl ⟨hlen, h⟩
    · exact .inr (.inl (.inr h))
    · rw [hex32_eq hlen]
      exact .inr (.inr (readPairs_cut h hn).bind)
  · exact .inr (.inl (.inl hlen))

theorem hex32_ok_iff : (∃ key, Returns (hex32 s label) (.ok key)) ↔
    utf8Len (hexBody s) = 64 ∧ PairsThen (· = []) (hexBody s) := by
  constructor
  · rintro ⟨key, hkey⟩
    rcases hex32_cases s label with h | h | h
    · exact h
    · obtain ⟨text, ht⟩ := hex32_error label h
      exact nomatch hkey.unique ht
    · exact absurd hkey h.not_returns
  · rintro ⟨hlen, h⟩
    exact hex32_ok label hlen h

theorem refused_of_error {e : AppError} (h : Returns (hex32 s label) (.error e)) :
    utf8Len (hexBody s) ≠ 64 ∨ PairsThen Refused (hexBody s) := by
  rcases hex32_cases s label with ⟨hlen, hs⟩ | hs | hs
  · obtain ⟨key, hkey⟩ := hex32_ok label hlen hs
    exact nomatch hkey.unique h
  · exact hs
  · exact absurd h hs.not_returns

theorem hex32_error_iff : (∃ text, Returns (hex32 s label) (.error (.validation text))) ↔
    utf8Len (hexBody s) ≠ 64 ∨ PairsThen Refused (hexBody s) :=
  ⟨fun ⟨_, ht⟩ => refused_of_error ht, hex32_error label⟩

theorem exact_hex32 : Exact (hex32 s label) (fun key => Hex (hexBody s) key.toList) ↔
    utf8Len (hexBody s) ≠ 64 ∨ PairsThen Refused (hexBody s) ∨
      PairsThen (· = []) (hexBody s) ∧ '+' ∉ hexBody s := by
  rw [exact_iff fun _ => hex32_hex, hex32_error_iff, exists_bytes_iff]
  tauto

end Fields

section Conversion

variable {dto : ReceiptDto}

/-- The receipt of the decoded keys. -/
def ofKeys (dto : ReceiptDto) : List (Bytes 32) → Panicking AppError AgentBondWorkReceiptV1
  | [programId, genesisHash, job, buyer, provider, requestHash, resultHash, artifactHash,
      softwareHash] =>
    pure { programId, genesisHash, job, buyer, provider, requestHash, resultHash, artifactHash,
           softwareHash, jobNonce := dto.jobNonce, createdAt := dto.createdAt,
           expiresAt := dto.expiresAt }
  | _ => ExceptT.mk none

theorem toReceipt_eq : dto.toReceipt = (do
    let keys ← dto.hexFields.mapM fun field => hex32 field.1 field.2
    dto.ofKeys keys) := by
  simp only [hexFields, List.mapM_cons, List.mapM_nil, bind_assoc, pure_bind]
  rfl

theorem toReceipt_denotes {r : AgentBondWorkReceiptV1} (h : dto.Denotes r) :
    Returns dto.toReceipt (.ok r) := by
  obtain ⟨hkeys, hnonce, hcreated, hexpires⟩ := h
  have hread := returns_mapM_ok.mpr (hkeys.imp fun field key hkey =>
    (hex32_hex hkey : Returns (hex32 field.1 field.2) (.ok key)))
  rw [toReceipt_eq]
  apply hread.bind_ok
  rw [ofKeys, ← hnonce, ← hcreated, ← hexpires]
  exact returns_pure r

theorem ofKeys_returns {keys : List (Bytes 32)} (h : keys.length = 9) :
    ∃ r, Returns (dto.ofKeys keys) (.ok r) := by
  match keys, h with
  | [_, _, _, _, _, _, _, _, _], _ => exact ⟨_, returns_pure _⟩

theorem toReceipt_error_iff : (∃ text, Returns dto.toReceipt (.error (.validation text))) ↔
    ∃ before field after, dto.hexFields = before ++ field :: after ∧
      (∀ f ∈ before, utf8Len (hexBody f.1) = 64 ∧ PairsThen (· = []) (hexBody f.1)) ∧
      (utf8Len (hexBody field.1) ≠ 64 ∨ PairsThen Refused (hexBody field.1)) := by
  rw [toReceipt_eq]
  constructor
  · rintro ⟨text, ht⟩
    rcases exists_stop (fun field => hex32 field.1 field.2) dto.hexFields with
      ⟨keys, hkeys⟩ | ⟨before, field, after, hfields, hbefore, he | hp⟩
    · have hr : ∃ r, Returns (dto.ofKeys keys) (.ok r) := ofKeys_returns hkeys.length_eq.symm
      obtain ⟨r, hr⟩ := hr
      exact nomatch ((returns_mapM_ok.mpr hkeys).bind_ok hr).unique ht
    · obtain ⟨e, he⟩ := he
      exact ⟨before, field, after, hfields, fun f hf => hex32_ok_iff.mp (hbefore f hf),
        refused_of_error he⟩
    · exact absurd ht ((mapM_stops hfields hbefore).2 hp).bind.not_returns
  · rintro ⟨before, field, after, hfields, hbefore, hfield⟩
    obtain ⟨text, ht⟩ := hex32_error field.2 hfield
    have hbefore : ∀ f ∈ before, ∃ key, Returns (hex32 f.1 f.2) (.ok key) := fun f hf =>
      hex32_ok_iff.mpr (hbefore f hf)
    exact ⟨text, ((mapM_stops hfields hbefore).1 _ ht).bind_error⟩

theorem exists_denotes_iff : (∃ r, dto.Denotes r) ↔ ∀ field ∈ dto.hexFields,
    utf8Len (hexBody field.1) = 64 ∧ PairsThen (· = []) (hexBody field.1) ∧
      '+' ∉ hexBody field.1 := by
  have hfield {field : Text × String} :
      (∃ key : Bytes 32, Hex (hexBody field.1) key.toList) ↔ utf8Len (hexBody field.1) = 64 ∧
        PairsThen (· = []) (hexBody field.1) ∧ '+' ∉ hexBody field.1 := by
    rw [exists_bytes_iff, and_comm]
  simp only [← hfield]
  rw [← exists_forall₂_iff]
  constructor
  · rintro ⟨r, hkeys, -⟩
    exact ⟨_, hkeys⟩
  · rintro ⟨keys, hkeys⟩
    match keys, hkeys.length_eq, hkeys with
    | [programId, genesisHash, job, buyer, provider, requestHash, resultHash, artifactHash,
        softwareHash], _, hkeys =>
      exact ⟨{ programId, genesisHash, job, buyer, provider, requestHash, resultHash, artifactHash,
               softwareHash, jobNonce := dto.jobNonce, createdAt := dto.createdAt,
               expiresAt := dto.expiresAt }, hkeys, rfl, rfl, rfl⟩

theorem exact_toReceipt : Exact dto.toReceipt dto.Denotes ↔
    (∃ before field after, dto.hexFields = before ++ field :: after ∧
      (∀ f ∈ before, utf8Len (hexBody f.1) = 64 ∧ PairsThen (· = []) (hexBody f.1)) ∧
      (utf8Len (hexBody field.1) ≠ 64 ∨ PairsThen Refused (hexBody field.1))) ∨
    ∀ field ∈ dto.hexFields, utf8Len (hexBody field.1) = 64 ∧
      PairsThen (· = []) (hexBody field.1) ∧ '+' ∉ hexBody field.1 := by
  rw [exact_iff fun _ => toReceipt_denotes, toReceipt_error_iff, exists_denotes_iff]

/-- A receipt that was written for a request converts back. -/
theorem toReceipt_fromReceipt (r : AgentBondWorkReceiptV1) :
    Returns (fromReceipt r).toReceipt (.ok r) := by
  have hfield (key : Bytes 32) : Hex (hexBody (hex key.toList)) key.toList := by
    rw [hexBody_hex]
    exact hex_hex key.toList
  apply toReceipt_denotes
  refine ⟨?_, rfl, rfl, rfl⟩
  simp only [fromReceipt, hexFields, List.forall₂_cons, List.Forall₂.nil, hfield, and_self]

end Conversion

end ReceiptDto

/-- The decoders, each with the texts for which it is exact. -/
theorem hex_exact_iff (s : Text) (label : String) (dto : ReceiptDto) :
    (Exact (hexDecode s) (Hex (hexBody s)) ↔
      utf8Len (hexBody s) % 2 ≠ 0 ∨ PairsThen Refused (hexBody s) ∨
        PairsThen (· = []) (hexBody s) ∧ '+' ∉ hexBody s) ∧
    (Exact (hex32 s label) (fun v => Hex (hexBody s) v.toList) ↔
      utf8Len (hexBody s) % 2 ≠ 0 ∨ PairsThen Refused (hexBody s) ∨
        PairsThen (· = []) (hexBody s) ∧ ('+' ∉ hexBody s ∨ utf8Len (hexBody s) ≠ 64)) ∧
    (Exact (hex64 s label) (fun v => Hex (hexBody s) v.toList) ↔
      utf8Len (hexBody s) % 2 ≠ 0 ∨ PairsThen Refused (hexBody s) ∨
        PairsThen (· = []) (hexBody s) ∧ ('+' ∉ hexBody s ∨ utf8Len (hexBody s) ≠ 128)) ∧
    (Exact (ReceiptDto.hex32 s label) (fun v => Hex (hexBody s) v.toList) ↔
      utf8Len (hexBody s) ≠ 64 ∨ PairsThen Refused (hexBody s) ∨
        PairsThen (· = []) (hexBody s) ∧ '+' ∉ hexBody s) ∧
    (Exact dto.toReceipt dto.Denotes ↔
      (∃ before field after, dto.hexFields = before ++ field :: after ∧
        (∀ f ∈ before, utf8Len (hexBody f.1) = 64 ∧ PairsThen (· = []) (hexBody f.1)) ∧
        (utf8Len (hexBody field.1) ≠ 64 ∨ PairsThen Refused (hexBody field.1))) ∨
      ∀ field ∈ dto.hexFields, utf8Len (hexBody field.1) = 64 ∧
        PairsThen (· = []) (hexBody field.1) ∧ '+' ∉ hexBody field.1) := by
  refine ⟨?_, ?_, ?_, ?_, ?_⟩
  · exact exact_hexDecode
  · exact exact_hexBytes
  · exact exact_hexBytes
  · exact ReceiptDto.exact_hex32
  · exact ReceiptDto.exact_toReceipt

/-- A text of four bytes is cut in its first character, and a sign is read as a zero. -/
theorem hex_not_exact :
    Panics (hexDecode ['€', 'a']) ∧ ¬ Exact (hexDecode ['€', 'a']) (Hex (hexBody ['€', 'a'])) ∧
      Returns (hexDecode ['+', 'f']) (.ok [15]) ∧
      ¬ Exact (hexDecode ['+', 'f']) (Hex (hexBody ['+', 'f'])) := by
  have hpanic : Panics (hexDecode ['€', 'a']) := by
    rw [Panics]
    decide
  have hsign : Returns (hexDecode ['+', 'f']) (.ok [15]) := by
    rw [Returns]
    decide
  refine ⟨hpanic, ?_, hsign, ?_⟩
  · intro h
    obtain ⟨r, hr⟩ := h.returns
    exact hpanic.not_returns hr
  · intro h
    have hplus : '+' ∈ hexBody ['+', 'f'] := by decide
    exact (exists_hex_iff.mp ⟨[15], (h.ok [15]).mp hsign⟩).2 hplus

end AgentBond
