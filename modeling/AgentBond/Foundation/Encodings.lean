import Mathlib.Data.Nat.Digits.Defs
import AgentBond.Foundation.ByteLayout
import AgentBond.Foundation.Text

/-! # Text encodings of bytes

Base 64 groups three bytes into four symbols and pads the last group; its
decoder accepts exactly the padded encodings whose unused bits are zero. Base 58
writes the bytes as one number, so it is injective at every fixed length.
-/

namespace Foundation

namespace Base64

def alphabet : Text :=
  "ABCDEFGHIJKLMNOPQRSTUVWXYZabcdefghijklmnopqrstuvwxyz0123456789+/".toList

/-- The symbol of six bits. -/
def symbol (d : ℕ) : Char := alphabet.getD d '='

/-- The six bits of a symbol. -/
def value (c : Char) : Option ℕ := alphabet.idxOf? c

/-- The four groups of six bits in three bytes. -/
def bits₁ (a : UInt8) : ℕ := a.toNat / 4
def bits₂ (a b : UInt8) : ℕ := a.toNat % 4 * 16 + b.toNat / 16
def bits₃ (b c : UInt8) : ℕ := b.toNat % 16 * 4 + c.toNat / 64
def bits₄ (c : UInt8) : ℕ := c.toNat % 64

/-- The three bytes in four groups of six bits. -/
def byte₁ (i j : ℕ) : UInt8 := UInt8.ofNat (i * 4 + j / 16)
def byte₂ (j k : ℕ) : UInt8 := UInt8.ofNat (j % 16 * 16 + k / 4)
def byte₃ (k l : ℕ) : UInt8 := UInt8.ofNat (k % 4 * 64 + l)

def encode : List UInt8 → Text
  | [] => []
  | [a] => [symbol (bits₁ a), symbol (bits₂ a 0), '=', '=']
  | [a, b] => [symbol (bits₁ a), symbol (bits₂ a b), symbol (bits₃ b 0), '=']
  | a :: b :: c :: rest =>
    symbol (bits₁ a) :: symbol (bits₂ a b) :: symbol (bits₃ b c) :: symbol (bits₄ c) :: encode rest

/-- Padding stands at the end only, and the bits it leaves unused are zero. -/
def decode : Text → Option (List UInt8)
  | [] => some []
  | w :: x :: y :: z :: rest => do
    let i ← value w
    let j ← value x
    if y = '=' ∧ z = '=' ∧ rest = [] then
      if j % 16 = 0 then some [byte₁ i j] else none
    else
      let k ← value y
      if z = '=' ∧ rest = [] then
        if k % 4 = 0 then some [byte₁ i j, byte₂ j k] else none
      else
        let l ← value z
        let bytes ← decode rest
        some (byte₁ i j :: byte₂ j k :: byte₃ k l :: bytes)
  | _ => none

section Bits

variable {a b c : UInt8} {i j k l : ℕ}

theorem bits₁_lt : bits₁ a < 64 := by
  have := a.toNat_lt
  unfold bits₁; omega

theorem bits₂_lt : bits₂ a b < 64 := by
  have := b.toNat_lt
  unfold bits₂; omega

theorem bits₃_lt : bits₃ b c < 64 := by
  have := c.toNat_lt
  unfold bits₃; omega

theorem bits₄_lt : bits₄ c < 64 := by unfold bits₄; omega

theorem byte₁_bits : byte₁ (bits₁ a) (bits₂ a b) = a := by
  have := b.toNat_lt
  have h : bits₁ a * 4 + bits₂ a b / 16 = a.toNat := by unfold bits₁ bits₂; omega
  rw [byte₁, h, UInt8.ofNat_toNat]

theorem byte₂_bits : byte₂ (bits₂ a b) (bits₃ b c) = b := by
  have := b.toNat_lt
  have := c.toNat_lt
  have h : bits₂ a b % 16 * 16 + bits₃ b c / 4 = b.toNat := by unfold bits₂ bits₃; omega
  rw [byte₂, h, UInt8.ofNat_toNat]

theorem byte₃_bits : byte₃ (bits₃ b c) (bits₄ c) = c := by
  have := c.toNat_lt
  have h : bits₃ b c % 4 * 64 + bits₄ c = c.toNat := by unfold bits₃ bits₄; omega
  rw [byte₃, h, UInt8.ofNat_toNat]

theorem bits₂_unused : bits₂ a 0 % 16 = 0 := by simp [bits₂]

theorem bits₃_unused : bits₃ b 0 % 4 = 0 := by simp [bits₃]

theorem toNat_byte₁ (hi : i < 64) (hj : j < 64) : (byte₁ i j).toNat = i * 4 + j / 16 :=
  UInt8.toNat_ofNat_of_lt' (by change _ < 256; omega)

theorem toNat_byte₂ (hk : k < 64) : (byte₂ j k).toNat = j % 16 * 16 + k / 4 :=
  UInt8.toNat_ofNat_of_lt' (by change _ < 256; omega)

theorem toNat_byte₃ (hl : l < 64) : (byte₃ k l).toNat = k % 4 * 64 + l :=
  UInt8.toNat_ofNat_of_lt' (by change _ < 256; omega)

theorem bits₁_bytes (hi : i < 64) (hj : j < 64) : bits₁ (byte₁ i j) = i := by
  rw [bits₁, toNat_byte₁ hi hj]; omega

theorem bits₂_bytes (hi : i < 64) (hj : j < 64) (hk : k < 64) :
    bits₂ (byte₁ i j) (byte₂ j k) = j := by
  rw [bits₂, toNat_byte₁ hi hj, toNat_byte₂ hk]; omega

theorem bits₃_bytes (hk : k < 64) (hl : l < 64) : bits₃ (byte₂ j k) (byte₃ k l) = k := by
  rw [bits₃, toNat_byte₂ hk, toNat_byte₃ hl]; omega

theorem bits₄_bytes (hl : l < 64) : bits₄ (byte₃ k l) = l := by
  rw [bits₄, toNat_byte₃ hl]; omega

theorem bits₂_last (hi : i < 64) (hj : j < 64) (hz : j % 16 = 0) : bits₂ (byte₁ i j) 0 = j := by
  rw [bits₂, toNat_byte₁ hi hj, UInt8.toNat_zero]; omega

theorem bits₃_last (hk : k < 64) (hz : k % 4 = 0) : bits₃ (byte₂ j k) 0 = k := by
  rw [bits₃, toNat_byte₂ hk, UInt8.toNat_zero]; omega

end Bits

theorem value_symbol {d : ℕ} (h : d < 64) : value (symbol d) = some d := by
  have hall : ∀ d < 64, value (symbol d) = some d := by decide
  exact hall d h

theorem symbol_of_value {c : Char} {d : ℕ} (h : value c = some d) : d < 64 ∧ symbol d = c := by
  obtain ⟨hd, hc, _⟩ := List.idxOf?_eq_some_iff.mp h
  constructor
  · exact hd
  · rw [symbol, List.getD, List.getElem?_eq_getElem hd, hc, Option.getD_some]

theorem value_pad : value '=' = none := by decide

theorem symbol_ne_pad {d : ℕ} (h : d < 64) : symbol d ≠ '=' := by
  intro he
  have hv := value_symbol h
  rw [he, value_pad] at hv
  cases hv

theorem decode_encode (bytes : List UInt8) : decode (encode bytes) = some bytes := by
  fun_induction encode bytes with
  | case1 => rfl
  | case2 a => simp [decode, value_symbol bits₁_lt, value_symbol bits₂_lt, bits₂_unused, byte₁_bits]
  | case3 a b =>
    simp [decode, value_symbol bits₁_lt, value_symbol bits₂_lt, value_symbol bits₃_lt,
      symbol_ne_pad bits₃_lt, bits₃_unused, byte₁_bits, byte₂_bits]
  | case4 a b c rest ih =>
    simp [decode, value_symbol bits₁_lt, value_symbol bits₂_lt, value_symbol bits₃_lt,
      value_symbol bits₄_lt, symbol_ne_pad bits₃_lt, symbol_ne_pad bits₄_lt, ih, byte₁_bits,
      byte₂_bits, byte₃_bits]

theorem encode_of_decode {text : Text} {bytes : List UInt8} (h : decode text = some bytes) :
    encode bytes = text := by
  fun_induction decode text generalizing bytes with
  | case1 => cases h; rfl
  | case2 w x y z rest ih =>
    simp only [Option.bind_eq_bind, Option.bind_eq_some_iff] at h
    obtain ⟨i, hi, j, hj, h⟩ := h
    obtain ⟨hi', rfl⟩ := symbol_of_value hi
    obtain ⟨hj', rfl⟩ := symbol_of_value hj
    split at h
    · rename_i hp
      obtain ⟨rfl, rfl, rfl⟩ := hp
      obtain ⟨hz, hb⟩ := Option.ite_none_right_eq_some.mp h
      cases hb
      rw [encode, bits₁_bytes hi' hj', bits₂_last hi' hj' hz]
    · simp only [Option.bind_eq_some_iff] at h
      obtain ⟨k, hk, h⟩ := h
      obtain ⟨hk', rfl⟩ := symbol_of_value hk
      split at h
      · rename_i hp
        obtain ⟨rfl, rfl⟩ := hp
        obtain ⟨hz, hb⟩ := Option.ite_none_right_eq_some.mp h
        cases hb
        rw [encode, bits₁_bytes hi' hj', bits₂_bytes hi' hj' hk', bits₃_last hk' hz]
      · simp only [Option.bind_eq_some_iff] at h
        obtain ⟨l, hl, rest', hr, h⟩ := h
        obtain ⟨hl', rfl⟩ := symbol_of_value hl
        cases h
        rw [encode, bits₁_bytes hi' hj', bits₂_bytes hi' hj' hk', bits₃_bytes hk' hl',
          bits₄_bytes hl', ih hr]
  | case3 => cases h

theorem decode_eq_some {text : Text} {bytes : List UInt8} :
    decode text = some bytes ↔ text = encode bytes := by
  constructor
  · exact fun h => (encode_of_decode h).symm
  · rintro rfl
    exact decode_encode bytes

theorem head_encode (a : UInt8) (rest : List UInt8) :
    (encode (a :: rest)).head? = some (symbol (bits₁ a)) := by
  rcases rest with _ | ⟨b, _ | ⟨c, rest⟩⟩ <;> rfl

theorem utf8Size_symbol (d : ℕ) : (symbol d).utf8Size = 1 := by
  by_cases h : d < 64
  · have hall : ∀ d < 64, (symbol d).utf8Size = 1 := by decide +kernel
    exact hall d h
  · have hn : alphabet[d]? = none := List.getElem?_eq_none (Nat.le_of_not_lt h)
    rw [symbol, List.getD, hn]
    rfl

theorem utf8Len_encode (bytes : List UInt8) :
    Text.utf8Len (encode bytes) = 4 * ((bytes.length + 2) / 3) := by
  have hp : ('=' : Char).utf8Size = 1 := rfl
  fun_induction encode bytes with
  | case1 => rfl
  | case2 a => simp [Text.utf8Len, utf8Size_symbol, hp]
  | case3 a b => simp [Text.utf8Len, utf8Size_symbol, hp]
  | case4 a b c rest ih =>
    simp only [Text.utf8Len, List.map_cons, List.sum_cons, utf8Size_symbol, List.length_cons]
      at ih ⊢
    omega

end Base64

namespace Base58

def alphabet : Text := "123456789ABCDEFGHJKLMNPQRSTUVWXYZabcdefghijkmnopqrstuvwxyz".toList

def symbol (d : ℕ) : Char := alphabet.getD d '1'

/-- The digits of the number the bytes write, after one `1` for each leading zero byte. -/
def encode (bytes : List UInt8) : Text :=
  List.replicate (bytes.takeWhile (· = 0)).length '1' ++
    ((Nat.digits 58 (Nat.ofDigits 256 (bytes.reverse.map UInt8.toNat))).map symbol).reverse

/-- The number a text writes. -/
def value (text : Text) : ℕ := Nat.ofDigits 58 (text.reverse.map fun c => alphabet.idxOf c)

theorem idxOf_symbol {d : ℕ} (h : d < 58) : alphabet.idxOf (symbol d) = d := by
  have hall : ∀ d < 58, alphabet.idxOf (symbol d) = d := by decide
  exact hall d h

theorem value_encode (bytes : List UInt8) :
    value (encode bytes) = Nat.ofDigits 256 (bytes.reverse.map UInt8.toNat) := by
  have hone : alphabet.idxOf '1' = 0 := rfl
  have hmap :
      ∀ n, (Nat.digits 58 n).map (fun d => alphabet.idxOf (symbol d)) = Nat.digits 58 n := by
    intro n
    calc (Nat.digits 58 n).map (fun d => alphabet.idxOf (symbol d))
        = (Nat.digits 58 n).map id :=
          List.map_congr_left fun d hd => idxOf_symbol (Nat.digits_lt_base (by decide) hd)
      _ = Nat.digits 58 n := List.map_id _
  simp only [value, encode, List.reverse_append, List.reverse_reverse, List.reverse_replicate,
    List.map_append, List.map_map, List.map_replicate, Function.comp_def, hone, hmap,
    Nat.ofDigits_append_replicate_zero, Nat.ofDigits_digits]

theorem encode_injective {bytes bytes' : List UInt8} (hl : bytes.length = bytes'.length)
    (h : encode bytes = encode bytes') : bytes = bytes' := by
  have hn := congrArg value h
  have hlt : ∀ bs : List UInt8, ∀ d ∈ bs.reverse.map UInt8.toNat, d < 256 := by
    intro bs d hd
    obtain ⟨b, -, rfl⟩ := List.mem_map.mp hd
    exact b.toNat_lt
  rw [value_encode, value_encode] at hn
  have hd := Nat.ofDigits_inj_of_len_eq (by decide) (by simpa using hl) (hlt _) (hlt _) hn
  exact List.reverse_injective (List.map_injective_iff.mpr (fun _ _ => UInt8.toNat_inj.mp) hd)

theorem mem_encode {bytes : List UInt8} {c : Char} (h : c ∈ encode bytes) : c ∈ alphabet := by
  simp only [encode, List.mem_append, List.mem_replicate, List.mem_reverse, List.mem_map] at h
  rcases h with ⟨-, rfl⟩ | ⟨d, hd, rfl⟩
  · decide
  · have hlt : d < alphabet.length := Nat.digits_lt_base (by decide) hd
    rw [symbol, List.getD, List.getElem?_eq_getElem hlt]
    exact List.getElem_mem hlt

/-- The key a text writes: no other text of 32 bytes is read as it. -/
def decodeKey (text : Text) : Option (Bytes 32) :=
  let bytes : Bytes 32 := ⟨(leBytes 32 (value text)).reverse, by simp⟩
  if encode bytes.toList = text then some bytes else none

theorem decodeKey_encode (key : Bytes 32) : decodeKey (encode key.toList) = some key := by
  have hdigits (bytes : List UInt8) :
      ofLeBytes bytes = Nat.ofDigits 256 (bytes.map UInt8.toNat) := by
    induction bytes with
    | nil => rfl
    | cons b bytes ih => rw [ofLeBytes, ih, List.map_cons, Nat.ofDigits_cons]
  have hbytes : (leBytes 32 (value (encode key.toList))).reverse = key.toList := by
    have hback := leBytes_ofLeBytes key.toList.reverse
    rw [List.length_reverse, List.Vector.toList_length] at hback
    rw [value_encode, ← hdigits, hback, List.reverse_reverse]
  have hkey : (⟨(leBytes 32 (value (encode key.toList))).reverse, by simp⟩ : Bytes 32) = key :=
    List.Vector.eq _ _ hbytes
  rw [decodeKey]
  simp only [hkey, if_true]

end Base58

end Foundation
