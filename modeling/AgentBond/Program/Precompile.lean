import AgentBond.Foundation.Panics
import AgentBond.Program.Ed25519

/-! # The Ed25519 precompile

What the runtime checks before the program reads the instruction, and that the
two readings agree: a key the program accepts has signed the message. The code
of the parser is also modelled with its indexing, which never goes out of range.
-/

namespace AgentBond

open Foundation Panicking

/-! ## The runtime -/

/-- The offsets of one signature of the precompile. -/
structure SignatureOffsets where
  signatureOffset : ℕ
  signatureInstructionIndex : ℕ
  publicKeyOffset : ℕ
  publicKeyInstructionIndex : ℕ
  messageDataOffset : ℕ
  messageDataSize : ℕ
  messageInstructionIndex : ℕ
  deriving DecidableEq

def u16At (data : List UInt8) (offset : ℕ) : Option ℕ :=
  (slice data offset 2).map fun v => ofLeBytes v.toList

/-- The entries follow a count and a byte of padding. -/
def signatureOffsets (data : List UInt8) (i : ℕ) : Option SignatureOffsets := do
  let start := 2 + 14 * i
  let signatureOffset ← u16At data start
  let signatureInstructionIndex ← u16At data (start + 2)
  let publicKeyOffset ← u16At data (start + 4)
  let publicKeyInstructionIndex ← u16At data (start + 6)
  let messageDataOffset ← u16At data (start + 8)
  let messageDataSize ← u16At data (start + 10)
  let messageInstructionIndex ← u16At data (start + 12)
  some { signatureOffset, signatureInstructionIndex, publicKeyOffset, publicKeyInstructionIndex,
         messageDataOffset, messageDataSize, messageInstructionIndex }

/-- The data of the instruction an entry points to; the largest index means this one. -/
def instructionData (datas : List (List UInt8)) (data : List UInt8) (index : ℕ) :
    Option (List UInt8) :=
  if index = ed25519CurrentInstructionIndex then some data else datas[index]?

/-- The signature of an entry verifies the message under the key, read where the entry says. -/
def EntryVerifies (verify : Pubkey → List UInt8 → Bytes 64 → Prop) (datas : List (List UInt8))
    (data : List UInt8) (i : ℕ) : Prop :=
  ∃ o sigData sig keyData key msgData, ∃ msg : Bytes o.messageDataSize,
    signatureOffsets data i = some o ∧
    instructionData datas data o.signatureInstructionIndex = some sigData ∧
    slice sigData o.signatureOffset 64 = some sig ∧
    instructionData datas data o.publicKeyInstructionIndex = some keyData ∧
    slice keyData o.publicKeyOffset 32 = some key ∧
    instructionData datas data o.messageInstructionIndex = some msgData ∧
    slice msgData o.messageDataOffset o.messageDataSize = some msg ∧
    verify key msg.toList sig

/-- The precompile accepts the instruction: every entry it counts verifies. -/
def PrecompileAccepts (verify : Pubkey → List UInt8 → Bytes 64 → Prop)
    (datas : List (List UInt8)) (data : List UInt8) : Prop :=
  ∃ count, data[0]? = some count ∧ ∀ i < count.toNat, EntryVerifies verify datas data i

/-! ## The parser -/

/-- The parser with its indexing. The sums of offsets are far below the size of a word, so that
none of the checked additions fails. -/
def readU16Indexed (data : List UInt8) (offset : ℕ) : Panicking ProtocolError ℕ := do
  let bytes ← checked (okOr (getRange data offset 2) .invalidEd25519Instruction)
  let b₀ ← index bytes 0
  let b₁ ← index bytes 1
  checked (.ok (ofLeBytes [b₀, b₁]))

def sliceCheckedIndexed (data : List UInt8) (offset len : ℕ) :
    Panicking ProtocolError (List UInt8) :=
  checked (okOr (getRange data offset len) .invalidEd25519Instruction)

def parseEd25519Indexed (data message : List UInt8) (ed25519Index : ℕ) :
    Panicking ProtocolError Pubkey := do
  checked (ensure (message.length = receiptEncodedLen) .invalidReceiptLength)
  checked (ensure (2 ≤ data.length) .invalidEd25519Instruction)
  let numSignatures ← index data 0
  checked (ensure (numSignatures = 1) .invalidEd25519Instruction)
  checked (ensure (16 ≤ data.length) .invalidEd25519Instruction)
  let offsets ← range data 2 16
  let signatureOffset ← readU16Indexed offsets 0
  let signatureInstructionIndex ← readU16Indexed offsets 2
  let publicKeyOffset ← readU16Indexed offsets 4
  let publicKeyInstructionIndex ← readU16Indexed offsets 6
  let messageDataOffset ← readU16Indexed offsets 8
  let messageDataSize ← readU16Indexed offsets 10
  let messageInstructionIndex ← readU16Indexed offsets 12
  checked (requireSelfIndex signatureInstructionIndex ed25519Index)
  checked (requireSelfIndex publicKeyInstructionIndex ed25519Index)
  checked (requireSelfIndex messageInstructionIndex ed25519Index)
  let pubkeyBytes ← sliceCheckedIndexed data publicKeyOffset 32
  let pubkey ← copy 32 pubkeyBytes
  let _ ← sliceCheckedIndexed data signatureOffset 64
  checked (ensure (messageDataSize = receiptEncodedLen) .invalidEd25519Instruction)
  let signedMessage ← sliceCheckedIndexed data messageDataOffset messageDataSize
  checked (ensure (signedMessage = message) .invalidSignature)
  checked (.ok pubkey)

section Parser

variable {data message : List UInt8} {offset n : ℕ}

theorem returns_sliceChecked (hn : 0 < n) :
    Returns (sliceCheckedIndexed data offset n)
      ((sliceChecked data offset n).map List.Vector.toList) := by
  have h : okOr (getRange data offset n) ProtocolError.invalidEd25519Instruction =
      (sliceChecked data offset n).map List.Vector.toList := by
    rw [getRange_eq hn, sliceChecked]
    cases slice data offset n <;> rfl
  exact congrArg some h

theorem returns_sliceChecked_bind {α : Type} {f : List UInt8 → Panicking ProtocolError α}
    {g : Bytes n → Except ProtocolError α} (hn : 0 < n)
    (hf : ∀ v : Bytes n, sliceChecked data offset n = .ok v → Returns (f v.toList) (g v)) :
    Returns (sliceCheckedIndexed data offset n >>= f) (sliceChecked data offset n >>= g) := by
  have h : Returns (sliceCheckedIndexed data offset n)
      ((sliceChecked data offset n).map List.Vector.toList) := returns_sliceChecked hn
  cases hs : sliceChecked data offset n with
  | error e =>
    rw [hs] at h
    exact h.bind (g := fun _ => .error e) fun _ hb => nomatch hb
  | ok v =>
    rw [hs] at h
    exact h.bind_ok (hf v hs)

theorem returns_readU16 : Returns (readU16Indexed data offset) (readU16 data offset) := by
  refine returns_sliceChecked_bind (by omega) fun v _ => ?_
  obtain ⟨b₀, b₁, hv⟩ := List.length_eq_two.mp v.toList_length
  rw [hv]
  exact (returns_index rfl).bind_ok ((returns_index rfl).bind_ok rfl)

/-- The parser never indexes out of range: it returns what the fallible parser returns. -/
theorem returns_parse (index : ℕ) :
    Returns (parseEd25519Indexed data message index)
      (parseEd25519InstructionData data message index) := by
  unfold parseEd25519Indexed parseEd25519InstructionData
  refine (returns_checked _).bind fun _ _ => ?_
  refine (returns_checked _).bind fun _ h2 => ?_
  have h2 := ensure_eq_ok.mp h2
  have h0 : data[0]? = some (byteAt data 0) := by
    rw [List.getElem?_eq_getElem (by omega), byteAt, List.getD_eq_getElem?_getD,
      List.getElem?_eq_getElem (by omega)]
    rfl
  refine (returns_index h0).bind_ok ?_
  refine (returns_checked _).bind fun _ _ => ?_
  refine (returns_checked _).bind fun _ h16 => ?_
  have h16 := ensure_eq_ok.mp h16
  refine (returns_range (by omega) h16).bind_ok ?_
  rw [List.drop_take]
  iterate 7 refine returns_readU16.bind fun _ _ => ?_
  iterate 3 refine (returns_checked _).bind fun _ _ => ?_
  refine returns_sliceChecked_bind (by omega) fun pubkey _ => ?_
  refine (returns_copy pubkey).bind_ok ?_
  refine returns_sliceChecked_bind (by omega) fun _ _ => ?_
  refine (returns_checked _).bind fun _ hsize => ?_
  refine returns_sliceChecked_bind ?_ fun signed _ => ?_
  · rw [ensure_eq_ok.mp hsize]
    decide
  · exact (returns_checked _).bind fun _ _ => returns_checked _

/-! ## Soundness -/

theorem u16At_of_readU16 {i x : ℕ} (hi : i + 2 ≤ 14)
    (h : readU16 ((data.drop 2).take 14) i = .ok x) : u16At data (2 + i) = some x := by
  have hslice : slice ((data.drop 2).take 14) i 2 = slice data (2 + i) 2 := by
    have hl : (((data.drop 2).take 14).drop i).take 2 = (data.drop (2 + i)).take 2 := by
      rw [List.drop_take, List.take_take, List.drop_drop, Nat.min_eq_left (by omega)]
    simp only [slice, hl]
  simp only [readU16, sliceChecked, bind_eq_ok, okOr_eq_ok, Except.ok.injEq] at h
  obtain ⟨v, hv, rfl⟩ := h
  rw [u16At, ← hslice, hv, Option.map_some]

theorem instructionData_of_requireSelfIndex {datas : List (List UInt8)} {index ed25519Index : ℕ}
    (hat : datas[ed25519Index]? = some data)
    (h : requireSelfIndex index ed25519Index = .ok ()) :
    instructionData datas data index = some data := by
  rw [requireSelfIndex, ensure_eq_ok] at h
  unfold instructionData
  split
  · rfl
  · rename_i hne
    rw [h.resolve_left hne, hat]

/-- What the parser accepts is one entry of the precompile whose three parts lie in the instruction
itself. -/
theorem signatureOffsets_of_parse {datas : List (List UInt8)} {index : ℕ} {key : Pubkey}
    (hat : datas[index]? = some data)
    (h : parseEd25519InstructionData data message index = .ok key) :
    byteAt data 0 = 1 ∧ ∃ o, signatureOffsets data 0 = some o ∧
      instructionData datas data o.publicKeyInstructionIndex = some data ∧
      slice data o.publicKeyOffset 32 = some key ∧
      instructionData datas data o.messageInstructionIndex = some data ∧
      ∃ msg, slice data o.messageDataOffset o.messageDataSize = some msg ∧
        msg.toList = message := by
  simp only [parseEd25519InstructionData, bind_eq_ok, ensure_eq_ok, exists_const,
    Except.ok.injEq] at h
  obtain ⟨-, -, hone, -, so, hso, si, hsi, ko, hko, ki, hki, mo, hmo, ms, hms, mi, hmi, ⟨⟩, hself,
    ⟨⟩, hkself, ⟨⟩, hmself, key', hkey, sig, hsig, hsize, msg, hmsg, hmessage, rfl⟩ := h
  refine ⟨hone, ⟨so, si, ko, ki, mo, ms, mi⟩, ?_, instructionData_of_requireSelfIndex hat hkself,
    okOr_eq_ok.mp hkey, instructionData_of_requireSelfIndex hat hmself, msg, okOr_eq_ok.mp hmsg,
    hmessage⟩
  have hso := u16At_of_readU16 (by omega) hso
  have hsi := u16At_of_readU16 (by omega) hsi
  have hko := u16At_of_readU16 (by omega) hko
  have hki := u16At_of_readU16 (by omega) hki
  have hmo := u16At_of_readU16 (by omega) hmo
  have hms := u16At_of_readU16 (by omega) hms
  have hmi := u16At_of_readU16 (by omega) hmi
  simp only [Nat.add_zero] at hso
  simp [signatureOffsets, hso, hsi, hko, hki, hmo, hms, hmi]

/-- The parser returns and does not panic, and a key it returns has signed the message whenever
the precompile accepted the instruction at the index the parser was given. -/
theorem ed25519_sound (verify : Pubkey → List UInt8 → Bytes 64 → Prop)
    (datas : List (List UInt8)) (data message : List UInt8) (index : ℕ) :
    Returns (parseEd25519Indexed data message index)
        (parseEd25519InstructionData data message index) ∧
      ∀ key, parseEd25519InstructionData data message index = .ok key →
        datas[index]? = some data → PrecompileAccepts verify datas data →
          ∃ sig, verify key message sig := by
  refine ⟨returns_parse index, fun key hparse hat haccepts => ?_⟩
  obtain ⟨hone, o, ho, hkd, hkey, hmd, msg, hmsg, rfl⟩ := signatureOffsets_of_parse hat hparse
  obtain ⟨count, hcount, hentries⟩ := haccepts
  have hone : count = 1 := by
    rw [byteAt, List.getD_eq_getElem?_getD, hcount] at hone
    exact hone
  obtain ⟨o', sigData, sig, keyData, key', msgData, msg', ho', -, -, hkd', hkey', hmd', hmsg',
    hverify⟩ := hentries 0 (by rw [hone]; decide)
  obtain rfl := Option.some.inj (ho.symm.trans ho')
  obtain rfl := Option.some.inj (hkd.symm.trans hkd')
  obtain rfl := Option.some.inj (hmd.symm.trans hmd')
  obtain rfl := Option.some.inj (hkey.symm.trans hkey')
  obtain rfl := Option.some.inj (hmsg.symm.trans hmsg')
  exact ⟨sig, hverify⟩

end Parser

namespace Signed

def message : List UInt8 := List.replicate 334 7

/-- The public key of the seed of 32 ones. -/
def key : Pubkey :=
  ⟨[0x8a, 0x88, 0xe3, 0xdd, 0x74, 0x09, 0xf1, 0x95, 0xfd, 0x52, 0xdb, 0x2d, 0x3c, 0xba, 0x5d, 0x72,
    0xca, 0x67, 0x09, 0xbf, 0x1d, 0x94, 0x12, 0x1b, 0xf3, 0x74, 0x88, 0x01, 0xb4, 0x0f, 0x6f, 0x5c],
    rfl⟩

/-- The signature of the message under the key. -/
def signature : Bytes 64 :=
  ⟨[0x3c, 0x6d, 0xda, 0xbb, 0x93, 0x55, 0xa8, 0xc3, 0x20, 0x31, 0xb7, 0x37, 0xb9, 0xfc, 0xb9, 0x71,
    0xa8, 0xb6, 0xb7, 0xee, 0xaf, 0x6d, 0xac, 0x35, 0x48, 0x93, 0xe3, 0xe7, 0xea, 0x20, 0x8e, 0x11,
    0xf6, 0xcc, 0x1e, 0x6c, 0x5b, 0xcd, 0xb6, 0x3c, 0x04, 0x2a, 0x58, 0xa5, 0x15, 0x0d, 0xbd, 0x11,
    0xef, 0x14, 0x3e, 0x3f, 0xf1, 0x52, 0x49, 0x6d, 0x2d, 0x22, 0xde, 0x0b, 0xf9, 0x45, 0xab, 0x0b],
    rfl⟩

def data : List UInt8 :=
  [[1, 0], leBytes 2 48, [255, 255], leBytes 2 16, [0, 0], leBytes 2 112, leBytes 2 334,
    [255, 255], key.toList, signature.toList, message].flatten

/-- The one signature that is known to verify. -/
def Verifies (k : Pubkey) (m : List UInt8) (s : Bytes 64) : Prop :=
  k = key ∧ m = message ∧ s = signature

theorem accepts : PrecompileAccepts Verifies [data] data := by
  refine ⟨1, rfl, fun i hi => ?_⟩
  obtain rfl : i = 0 := by
    have h1 : (1 : UInt8).toNat = 1 := rfl
    omega
  exact ⟨⟨48, 65535, 16, 0, 112, 334, 65535⟩, data, signature, data, key, data,
    ⟨message, List.length_replicate⟩,
    by decide +kernel, rfl, by decide +kernel, rfl, by decide +kernel, rfl, by decide +kernel, rfl,
    rfl, rfl⟩

theorem ed25519_sound_signed :
    Returns (parseEd25519Indexed data message 0) (parseEd25519InstructionData data message 0) ∧
      ∃ sig, Verifies key message sig :=
  ⟨(ed25519_sound Verifies [data] data message 0).1,
    (ed25519_sound Verifies [data] data message 0).2 key (by decide +kernel) rfl accepts⟩

end Signed

end AgentBond
