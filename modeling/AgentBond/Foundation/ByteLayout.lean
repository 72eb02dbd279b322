import Mathlib.Data.Vector.Basic

/-! # Fixed byte layouts

A record of fixed-width fields is the concatenation of their bytes. Reading a
field back is taking the slice at its offset: slices skip whole fields to their
left and stop at the end of their own. Words are little-endian.
-/

namespace Foundation

/-- Byte strings of a fixed length. -/
abbrev Bytes (n : ℕ) := List.Vector UInt8 n

/-- The given number of bytes from the offset, when the data is long enough. -/
def slice (data : List UInt8) (offset n : ℕ) : Option (Bytes n) :=
  if h : ((data.drop offset).take n).length = n then some ⟨_, h⟩ else none

theorem slice_skip {pre rest : List UInt8} {offset n : ℕ} (h : pre.length ≤ offset) :
    slice (pre ++ rest) offset n = slice rest (offset - pre.length) n := by
  have hd : (pre ++ rest).drop offset = rest.drop (offset - pre.length) := by
    rw [List.drop_append, List.drop_eq_nil_of_le h, List.nil_append]
  simp only [slice, hd]

theorem slice_field {n : ℕ} (v : Bytes n) (rest : List UInt8) :
    slice (v.toList ++ rest) 0 n = some v := by
  have ht : ((v.toList ++ rest).drop 0).take n = v.toList := by
    rw [List.drop_zero, List.take_append_of_le_length (by simp)]
    exact List.take_of_length_le (by simp)
  rw [slice, dif_pos (by rw [ht, List.Vector.toList_length])]
  exact congrArg some (List.Vector.eq _ _ ht)

theorem slice_last {n : ℕ} (v : Bytes n) : slice v.toList 0 n = some v := by
  simpa using slice_field v []

theorem slice_cons {b : UInt8} {rest : List UInt8} {offset n : ℕ} (h : 0 < offset) :
    slice (b :: rest) offset n = slice rest (offset - 1) n :=
  @slice_skip [b] rest offset n h

theorem drop_of_slice {data : List UInt8} {offset n : ℕ} {v : Bytes n}
    (h : slice data offset n = some v) : data.drop offset = v.toList ++ data.drop (offset + n) := by
  rw [slice, Option.dite_none_right_eq_some] at h
  obtain ⟨_, hv⟩ := h
  have ht : (data.drop offset).take n = v.toList := congrArg List.Vector.toList (Option.some.inj hv)
  rw [← ht, ← List.drop_drop, List.take_append_drop]

/-- The byte at an index the caller has checked to be in range. -/
def byteAt (data : List UInt8) (i : ℕ) : UInt8 := data.getD i 0

@[simp] theorem byteAt_zero {b : UInt8} {rest : List UInt8} : byteAt (b :: rest) 0 = b := rfl

theorem byteAt_skip {pre rest : List UInt8} {i : ℕ} (h : pre.length ≤ i) :
    byteAt (pre ++ rest) i = byteAt rest (i - pre.length) := by
  simp only [byteAt, List.getD_eq_getElem?_getD, List.getElem?_append_right h]

theorem byteAt_cons {b : UInt8} {rest : List UInt8} {i : ℕ} (h : 0 < i) :
    byteAt (b :: rest) i = byteAt rest (i - 1) :=
  @byteAt_skip [b] rest i h

theorem drop_of_byteAt {data : List UInt8} (i : ℕ) (h : i < data.length) :
    data.drop i = byteAt data i :: data.drop (i + 1) := by
  rw [List.drop_eq_getElem_cons h]
  simp [byteAt, h]

/-- Write a number in the given count of bytes, least significant first. -/
def leBytes : ℕ → ℕ → List UInt8
  | 0, _ => []
  | k + 1, n => UInt8.ofNat n :: leBytes k (n / 256)

/-- Read a little-endian number. -/
def ofLeBytes : List UInt8 → ℕ
  | [] => 0
  | b :: bs => b.toNat + 256 * ofLeBytes bs

@[simp] theorem length_leBytes (k n : ℕ) : (leBytes k n).length = k := by
  induction k generalizing n with
  | zero => rfl
  | succ k ih => simp [leBytes, ih]

theorem ofLeBytes_lt (bs : List UInt8) : ofLeBytes bs < 256 ^ bs.length := by
  induction bs with
  | nil => simp [ofLeBytes]
  | cons b bs ih =>
    have := b.toNat_lt
    rw [ofLeBytes, List.length_cons, pow_succ]
    omega

theorem leBytes_ofLeBytes (bs : List UInt8) : leBytes bs.length (ofLeBytes bs) = bs := by
  induction bs with
  | nil => rfl
  | cons b bs ih =>
    have hb := b.toNat_lt
    have hq : (b.toNat + 256 * ofLeBytes bs) / 256 = ofLeBytes bs := by omega
    have hr : UInt8.ofNat (b.toNat + 256 * ofLeBytes bs) = b := by
      apply UInt8.toNat_inj.mp
      rw [UInt8.toNat_ofNat']
      omega
    rw [ofLeBytes, List.length_cons, leBytes, hq, hr, ih]

theorem ofLeBytes_leBytes (k n : ℕ) : ofLeBytes (leBytes k n) = n % 256 ^ k := by
  induction k generalizing n with
  | zero => simp [leBytes, ofLeBytes, Nat.mod_one]
  | succ k ih =>
    have hb : (UInt8.ofNat n).toNat = n % 256 := UInt8.toNat_ofNat'
    rw [leBytes, ofLeBytes, ih, hb, pow_succ', Nat.mod_mul]

/-- The eight little-endian bytes of an unsigned word. -/
def u64Bytes (x : UInt64) : Bytes 8 := ⟨leBytes 8 x.toNat, length_leBytes 8 _⟩

/-- The unsigned word with the given little-endian bytes. -/
def u64OfBytes (v : Bytes 8) : UInt64 := UInt64.ofNat (ofLeBytes v.toList)

@[simp] theorem u64OfBytes_u64Bytes (x : UInt64) : u64OfBytes (u64Bytes x) = x := by
  have h : ofLeBytes (leBytes 8 x.toNat) = x.toNat := by
    rw [ofLeBytes_leBytes]
    exact Nat.mod_eq_of_lt x.toNat_lt
  change UInt64.ofNat (ofLeBytes (leBytes 8 x.toNat)) = x
  rw [h, UInt64.ofNat_toNat]

@[simp] theorem u64Bytes_u64OfBytes (v : Bytes 8) : u64Bytes (u64OfBytes v) = v := by
  have hlt : ofLeBytes v.toList < 2 ^ 64 := by
    have h := ofLeBytes_lt v.toList
    rwa [List.Vector.toList_length] at h
  have hl := leBytes_ofLeBytes v.toList
  rw [List.Vector.toList_length] at hl
  apply List.Vector.eq
  change leBytes 8 (UInt64.ofNat (ofLeBytes v.toList)).toNat = v.toList
  rw [UInt64.toNat_ofNat_of_lt' hlt, hl]

/-- The eight little-endian bytes of a signed word. -/
def i64Bytes (x : Int64) : Bytes 8 := u64Bytes x.toUInt64

/-- The signed word with the given little-endian bytes. -/
def i64OfBytes (v : Bytes 8) : Int64 := (u64OfBytes v).toInt64

@[simp] theorem i64OfBytes_i64Bytes (x : Int64) : i64OfBytes (i64Bytes x) = x := by
  rw [i64OfBytes, i64Bytes, u64OfBytes_u64Bytes, Int64.toInt64_toUInt64]

@[simp] theorem i64Bytes_i64OfBytes (v : Bytes 8) : i64Bytes (i64OfBytes v) = v := by
  rw [i64Bytes, i64OfBytes, UInt64.toUInt64_toInt64, u64Bytes_u64OfBytes]

end Foundation
