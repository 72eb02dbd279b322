import AgentBond.Foundation.ByteSlices

/-! # Reading hexadecimal text pair by pair

A text is cut every two bytes and each part is read as a number in base 16. The
reader of numbers allows a sign, and a cut may fall inside a character. So the
reading of a text ends in one of three ways, by the first part that is not a
number: there is none, the part is refused, or the part cannot be cut.
-/

namespace Foundation

namespace Text

/-- `char::to_digit` -/
def toDigit (radix : ℕ) (c : Char) : Option ℕ :=
  let value :=
    if c.isDigit then some (c.toNat - '0'.toNat)
    else if c.isLower then some (c.toNat - 'a'.toNat + 10)
    else if c.isUpper then some (c.toNat - 'A'.toNat + 10)
    else none
  value.filter (· < radix)

/-- `u8::from_str_radix`, with an optional sign `+`. -/
def parseU8 (radix : ℕ) (text : Text) : Option UInt8 :=
  let digits := (stripPrefix ['+'] text).getD text
  if digits = [] then none
  else
    (digits.foldlM (fun n c => do
        let d ← toDigit radix c
        if n * radix + d < 2 ^ 8 then some (n * radix + d) else none) 0).map UInt8.ofNat

/-- A text of pairs of digits, and the bytes they denote. -/
inductive Hex : Text → List UInt8 → Prop
  | nil : Hex [] []
  | cons {c d : Char} {m n : ℕ} {text : Text} {bytes : List UInt8} :
      toDigit 16 c = some m → toDigit 16 d = some n → Hex text bytes →
      Hex (c :: d :: text) (UInt8.ofNat (16 * m + n) :: bytes)

/-- Pairs that are read as numbers, where a sign may stand for the first digit, and what follows
them. -/
inductive PairsThen (rest : Text → Prop) : Text → Prop
  | done {text : Text} : rest text → PairsThen rest text
  | pair {c d : Char} {text : Text} : isHexDigit c = true ∨ c = '+' → isHexDigit d = true →
      PairsThen rest text → PairsThen rest (c :: d :: text)

/-- The first two bytes are characters but not a number. -/
inductive Refused : Text → Prop
  | char {c : Char} {text : Text} : c.utf8Size = 2 → Refused (c :: text)
  | pair {c d : Char} {text : Text} : c.utf8Size = 1 → d.utf8Size = 1 →
      ¬ ((isHexDigit c = true ∨ c = '+') ∧ isHexDigit d = true) → Refused (c :: d :: text)

/-- The second byte is not the last of a character. -/
inductive Cut : Text → Prop
  | first {c : Char} {text : Text} : 2 < c.utf8Size → Cut (c :: text)
  | second {c d : Char} {text : Text} : c.utf8Size = 1 → 1 < d.utf8Size → Cut (c :: d :: text)

section Digits

theorem isHexDigit_iff {c : Char} : isHexDigit c = true ↔
    (48 ≤ c.toNat ∧ c.toNat ≤ 57) ∨ (97 ≤ c.toNat ∧ c.toNat ≤ 102) ∨
      (65 ≤ c.toNat ∧ c.toNat ≤ 70) := by
  simp [isHexDigit, Char.isDigit, Char.le_def, UInt32.le_iff_toNat_le, ← Char.toNat_val, or_assoc]

theorem toDigit_lt {radix : ℕ} {c : Char} {m : ℕ} (h : toDigit radix c = some m) : m < radix :=
  of_decide_eq_true (Option.filter_eq_some_iff.mp h).2

theorem isLower_iff {c : Char} : c.isLower = true ↔ 97 ≤ c.toNat ∧ c.toNat ≤ 122 := by
  have h : c.isLower = (decide (97 ≤ c.val) && decide (c.val ≤ 122)) := rfl
  simp [h, UInt32.le_iff_toNat_le, ← Char.toNat_val]

theorem isUpper_iff {c : Char} : c.isUpper = true ↔ 65 ≤ c.toNat ∧ c.toNat ≤ 90 := by
  have h : c.isUpper = decide (65 ≤ c.val ∧ c.val ≤ 90) := rfl
  simp [h, UInt32.le_iff_toNat_le, ← Char.toNat_val]

theorem isSome_toDigit (c : Char) : (toDigit 16 c).isSome = isHexDigit c := by
  have hdigit : c.isDigit = true ↔ 48 ≤ c.toNat ∧ c.toNat ≤ 57 := Char.isDigit_iff_toNat
  have hbases : '0'.toNat = 48 ∧ 'a'.toNat = 97 ∧ 'A'.toNat = 65 := by decide
  rw [Bool.eq_iff_iff, isHexDigit_iff]
  simp only [toDigit, hdigit, isLower_iff, isUpper_iff, hbases]
  split_ifs <;> simp <;> omega

theorem isHexDigit_of_toDigit {c : Char} {m : ℕ} (h : toDigit 16 c = some m) :
    isHexDigit c = true := by
  rw [← isSome_toDigit, h, Option.isSome_some]

theorem exists_toDigit {c : Char} (h : isHexDigit c = true) : ∃ m, toDigit 16 c = some m :=
  Option.isSome_iff_exists.mp ((isSome_toDigit c).trans h)

theorem utf8Size_of_isHexDigit {c : Char} (h : isHexDigit c = true) : c.utf8Size = 1 := by
  rw [Char.utf8Size_eq_one_iff, UInt32.le_iff_toNat_le, Char.toNat_val]
  have h := isHexDigit_iff.mp h
  have h127 : (127 : UInt32).toNat = 127 := rfl
  omega

theorem utf8Size_of_first {c : Char} (h : isHexDigit c = true ∨ c = '+') : c.utf8Size = 1 := by
  rcases h with h | rfl
  · exact utf8Size_of_isHexDigit h
  · rfl

theorem parseU8_digits {c d : Char} {m n : ℕ} (hc : toDigit 16 c = some m)
    (hd : toDigit 16 d = some n) : parseU8 16 [c, d] = some (UInt8.ofNat (16 * m + n)) := by
  have hplus : stripPrefix ['+'] [c, d] = none := by
    rw [stripPrefix, if_neg]
    rintro rfl
    cases hc
  have hm := toDigit_lt hc
  have hn := toDigit_lt hd
  have hfirst : m < 256 := by omega
  have hboth : m * 16 + n < 256 := by omega
  simp [parseU8, hplus, hc, hd, hfirst, hboth, Nat.mul_comm]

theorem parseU8_signed {d : Char} {n : ℕ} (hd : toDigit 16 d = some n) :
    parseU8 16 ['+', d] = some (UInt8.ofNat n) := by
  have hplus : stripPrefix ['+'] ['+', d] = some [d] := stripPrefix_append ['+'] [d]
  have hn : n < 256 := by
    have hn := toDigit_lt hd
    omega
  simp [parseU8, hplus, hd, hn]

theorem exists_parseU8 {c d : Char} (hc : isHexDigit c = true ∨ c = '+')
    (hd : isHexDigit d = true) : ∃ byte, parseU8 16 [c, d] = some byte := by
  obtain ⟨n, hn⟩ := exists_toDigit hd
  rcases hc with hc | rfl
  · obtain ⟨m, hm⟩ := exists_toDigit hc
    exact ⟨_, parseU8_digits hm hn⟩
  · exact ⟨_, parseU8_signed hn⟩

theorem parseU8_eq_none {c d : Char}
    (h : ¬ ((isHexDigit c = true ∨ c = '+') ∧ isHexDigit d = true)) : parseU8 16 [c, d] = none := by
  have hnot {c : Char} (hc : isHexDigit c ≠ true) : toDigit 16 c = none := by
    rw [← Option.not_isSome_iff_eq_none, isSome_toDigit]
    exact hc
  by_cases hplus : c = '+'
  · subst hplus
    have hstrip : stripPrefix ['+'] ['+', d] = some [d] := stripPrefix_append ['+'] [d]
    simp [parseU8, hstrip, hnot fun hd => h ⟨.inr rfl, hd⟩]
  · have hstrip : stripPrefix ['+'] [c, d] = none := by rw [stripPrefix, if_neg (Ne.symm hplus)]
    cases hc : toDigit 16 c with
    | none => simp [parseU8, hstrip, hc]
    | some m =>
      simp [parseU8, hstrip, hc, hnot fun hd => h ⟨.inl (isHexDigit_of_toDigit hc), hd⟩]

theorem parseU8_char {c : Char} (h : c.utf8Size = 2) : parseU8 16 [c] = none := by
  have hplus : '+' ≠ c := by
    rintro rfl
    cases h
  have hc : toDigit 16 c = none := by
    rw [Option.eq_none_iff_forall_ne_some]
    intro m hm
    rw [utf8Size_of_isHexDigit (isHexDigit_of_toDigit hm)] at h
    omega
  have hstrip : stripPrefix ['+'] [c] = none := by rw [stripPrefix, if_neg hplus]
  simp [parseU8, hstrip, hc]

end Digits

section Reading

open Panicking

variable {ε : Type}

/-- The number that the two bytes from a position denote. -/
def pairAt (e : ε) (text : Text) (i : ℕ) : Panicking ε UInt8 := do
  let pair ← str text i (i + 2)
  checked (okOr (parseU8 16 pair) e)

def readPairs (e : ε) (text : Text) (n : ℕ) : Panicking ε (List UInt8) :=
  (List.range' 0 n 2).mapM (pairAt e text)

variable {e : ε} {c d : Char} {text : Text} {n : ℕ}

theorem readPairs_succ : readPairs e text (n + 1) = (do
      let byte ← pairAt e text 0
      let bytes ← (List.range' 2 n 2).mapM (pairAt e text)
      pure (byte :: bytes)) := by
  rw [readPairs, List.range'_succ, List.mapM_cons]

theorem pairAt_zero_char (hc : c.utf8Size = 2) :
    pairAt e (c :: text) 0 = checked (okOr (parseU8 16 [c]) e) := by
  have hslice : byteSlice (c :: text) 0 (0 + 2) = some [c] := by
    have hfirst := splitAtByte_add c text 0
    rw [hc] at hfirst
    rw [byteSlice_zero, hfirst, splitAtByte_zero]
    rfl
  rw [pairAt, str, hslice]
  rfl

theorem pairAt_zero_cut (h : Cut text) : Panics (pairAt e text 0) := by
  have hslice : byteSlice text 0 (0 + 2) = none := by
    rw [byteSlice_zero]
    cases h with
    | first hc => rw [splitAtByte_of_lt (by omega) hc, Option.map_none]
    | @second c d text hc hd =>
      have hfirst := splitAtByte_add c (d :: text) 1
      rw [hc] at hfirst
      rw [hfirst, splitAtByte_of_lt Nat.one_pos hd]
      rfl
  rw [pairAt, str, hslice]
  exact Panics.bind rfl

theorem pairAt_zero_pair (hc : c.utf8Size = 1) (hd : d.utf8Size = 1) :
    pairAt e (c :: d :: text) 0 = checked (okOr (parseU8 16 [c, d]) e) := by
  have hslice : byteSlice (c :: d :: text) 0 (0 + 2) = some [c, d] := by
    have hfirst := splitAtByte_add c (d :: text) 1
    have hsecond := splitAtByte_add d text 0
    rw [hc] at hfirst
    rw [hd] at hsecond
    rw [byteSlice_zero, hfirst, hsecond, splitAtByte_zero]
    rfl
  rw [pairAt, str, hslice]
  rfl

theorem pairAt_add_two (hc : c.utf8Size = 1) (hd : d.utf8Size = 1) (i : ℕ) :
    pairAt e (c :: d :: text) (2 + i) = pairAt e text i := by
  have hslice : byteSlice (c :: d :: text) (2 + i) (2 + i + 2) = byteSlice text i (i + 2) := by
    have hfirst := byteSlice_add c (d :: text) (i + 1) (i + 2 + 1)
    have hsecond := byteSlice_add d text i (i + 2)
    rw [hc] at hfirst
    rw [hd] at hsecond
    rw [show 2 + i = i + 1 + 1 by omega, show i + 1 + 1 + 2 = i + 2 + 1 + 1 by omega, hfirst,
      hsecond]
  rw [pairAt, pairAt, str, hslice, str]

theorem readPairs_pair (hc : c.utf8Size = 1) (hd : d.utf8Size = 1) :
    readPairs e (c :: d :: text) (n + 1) = (do
      let byte ← checked (okOr (parseU8 16 [c, d]) e)
      let bytes ← readPairs e text n
      pure (byte :: bytes)) := by
  have hrest : (List.range' 2 n 2).mapM (pairAt e (c :: d :: text)) = readPairs e text n := by
    have hshift : (List.range' 0 n 2).map (2 + ·) = List.range' 2 n 2 := List.map_add_range' 0 n 2
    rw [readPairs, ← hshift, List.mapM_map]
    exact congrArg (List.mapM · _) (funext fun i => pairAt_add_two hc hd i)
  rw [readPairs_succ, pairAt_zero_pair hc hd, hrest]

theorem utf8Len_cons (c : Char) (text : Text) : utf8Len (c :: text) = c.utf8Size + utf8Len text :=
  rfl

theorem readPairs_hex {bytes : List UInt8} (h : Hex text bytes) (hn : utf8Len text = 2 * n) :
    Returns (readPairs e text n) (.ok bytes) := by
  induction h generalizing n with
  | nil =>
    obtain rfl : n = 0 := by
      simp only [utf8Len, List.map_nil, List.sum_nil] at hn
      omega
    exact returns_pure []
  | cons hc hd _ ih =>
    have hc' := utf8Size_of_isHexDigit (isHexDigit_of_toDigit hc)
    have hd' := utf8Size_of_isHexDigit (isHexDigit_of_toDigit hd)
    rw [utf8Len_cons, utf8Len_cons, hc', hd'] at hn
    obtain ⟨n, rfl⟩ : ∃ m, n = m + 1 := ⟨n - 1, by omega⟩
    rw [readPairs_pair hc' hd', parseU8_digits hc hd]
    exact (returns_checked (.ok _)).bind_ok ((ih (by omega)).bind_ok (returns_pure _))

theorem Hex.unique {bytes bytes' : List UInt8} (h : Hex text bytes) (h' : Hex text bytes') :
    bytes = bytes' := by
  induction h generalizing bytes' with
  | nil => cases h' with | nil => rfl
  | cons hc hd _ ih =>
    cases h' with
    | cons hc' hd' h' =>
      cases hc.symm.trans hc'
      cases hd.symm.trans hd'
      rw [ih h']

theorem readPairs_pairsThen {rest : Text → Prop} (out : Panicking ε (List UInt8) → Prop)
    (hrest : ∀ {text n}, rest text → utf8Len text = 2 * n → out (readPairs e text n))
    (hout : ∀ {x : Panicking ε (List UInt8)} (byte : UInt8), out x → out (do
      let bytes ← x
      pure (byte :: bytes)))
    (h : PairsThen rest text) (hn : utf8Len text = 2 * n) : out (readPairs e text n) := by
  induction h generalizing n with
  | done h => exact hrest h hn
  | @pair c d text hc hd h ih =>
    have hc' := utf8Size_of_first hc
    have hd' := utf8Size_of_isHexDigit hd
    rw [utf8Len_cons, utf8Len_cons, hc', hd'] at hn
    obtain ⟨n, rfl⟩ : ∃ m, n = m + 1 := ⟨n - 1, by omega⟩
    obtain ⟨byte, hbyte⟩ := exists_parseU8 hc hd
    rw [readPairs_pair hc' hd', hbyte]
    exact hout byte (ih (by omega))

theorem readPairs_pairs (h : PairsThen (· = []) text) (hn : utf8Len text = 2 * n) :
    ∃ bytes, Returns (readPairs e text n) (.ok bytes) := by
  apply readPairs_pairsThen (fun x => ∃ bytes, Returns x (.ok bytes)) _ _ h hn
  · rintro _ n rfl hn
    obtain rfl : n = 0 := by
      simp only [utf8Len, List.map_nil, List.sum_nil] at hn
      omega
    exact ⟨[], returns_pure []⟩
  · rintro x byte ⟨bytes, hx⟩
    exact ⟨byte :: bytes, hx.bind_ok (returns_pure _)⟩

theorem readPairs_refused (h : PairsThen Refused text) (hn : utf8Len text = 2 * n) :
    Returns (readPairs e text n) (.error e) := by
  apply readPairs_pairsThen (Returns · (.error e)) _ _ h hn
  · intro text n h hn
    cases h with
    | @char c text hc =>
      obtain ⟨n, rfl⟩ : ∃ m, n = m + 1 := ⟨n - 1, by rw [utf8Len_cons] at hn; omega⟩
      rw [readPairs_succ, pairAt_zero_char hc, parseU8_char hc]
      exact Returns.bind_error rfl
    | @pair c d text hc hd h =>
      obtain ⟨n, rfl⟩ : ∃ m, n = m + 1 := ⟨n - 1, by rw [utf8Len_cons] at hn; omega⟩
      rw [readPairs_pair hc hd, parseU8_eq_none h]
      exact Returns.bind_error rfl
  · intro x byte hx
    exact hx.bind_error

theorem readPairs_cut (h : PairsThen Cut text) (hn : utf8Len text = 2 * n) :
    Panics (readPairs e text n) := by
  apply readPairs_pairsThen Panics _ _ h hn
  · intro text n h hn
    have hpos : 0 < n := by
      cases h with
      | first hc => rw [utf8Len_cons] at hn; omega
      | second hc hd => rw [utf8Len_cons] at hn; omega
    obtain ⟨n, rfl⟩ : ∃ m, n = m + 1 := ⟨n - 1, by omega⟩
    rw [readPairs_succ]
    exact (pairAt_zero_cut h).bind
  · intro x byte hx
    exact hx.bind

/-- Every text of an even number of bytes ends in one of the three ways. -/
theorem pairsThen_cases (text : Text) (hn : utf8Len text = 2 * n) :
    PairsThen (· = []) text ∨ PairsThen Refused text ∨ PairsThen Cut text := by
  induction n generalizing text with
  | zero =>
    cases text with
    | nil => exact .inl (.done rfl)
    | cons c text =>
      have hc := c.utf8Size_pos
      rw [utf8Len_cons] at hn
      omega
  | succ n ih =>
    rcases text with _ | ⟨c, _ | ⟨d, text⟩⟩
    · simp only [utf8Len, List.map_nil, List.sum_nil] at hn
      omega
    · simp only [utf8Len, List.map_cons, List.map_nil, List.sum_cons, List.sum_nil] at hn
      rcases Nat.lt_or_ge 2 c.utf8Size with hc | hc
      · exact .inr (.inr (.done (.first hc)))
      · exact .inr (.inl (.done (.char (by omega))))
    · rw [utf8Len_cons, utf8Len_cons] at hn
      have hpos := c.utf8Size_pos
      have hpos' := d.utf8Size_pos
      rcases Nat.lt_trichotomy c.utf8Size 2 with hc | hc | hc
      · have hc : c.utf8Size = 1 := by omega
        by_cases hd : d.utf8Size = 1
        · by_cases h : (isHexDigit c = true ∨ c = '+') ∧ isHexDigit d = true
          · have hn' : utf8Len text = 2 * n := by omega
            rcases ih text hn' with h' | h' | h'
            · exact .inl (.pair h.1 h.2 h')
            · exact .inr (.inl (.pair h.1 h.2 h'))
            · exact .inr (.inr (.pair h.1 h.2 h'))
          · exact .inr (.inl (.done (.pair hc hd h)))
        · exact .inr (.inr (.done (.second hc (by omega))))
      · exact .inr (.inl (.done (.char hc)))
      · exact .inr (.inr (.done (.first hc)))

theorem utf8Len_of_hex {bytes : List UInt8} (h : Hex text bytes) :
    utf8Len text = 2 * bytes.length := by
  induction h with
  | nil => rfl
  | cons hc hd _ ih =>
    rw [utf8Len_cons, utf8Len_cons, utf8Size_of_isHexDigit (isHexDigit_of_toDigit hc),
      utf8Size_of_isHexDigit (isHexDigit_of_toDigit hd), ih, List.length_cons]
    omega

theorem exists_hex_iff : (∃ bytes, Hex text bytes) ↔ PairsThen (· = []) text ∧ '+' ∉ text := by
  constructor
  · rintro ⟨bytes, h⟩
    induction h with
    | nil => exact ⟨.done rfl, List.not_mem_nil⟩
    | @cons c d m n text bytes hc hd _ ih =>
      refine ⟨.pair (.inl (isHexDigit_of_toDigit hc)) (isHexDigit_of_toDigit hd) ih.1, ?_⟩
      rw [List.mem_cons, List.mem_cons, not_or, not_or]
      refine ⟨?_, ?_, ih.2⟩
      · rintro rfl
        cases hc
      · rintro rfl
        cases hd
  · rintro ⟨h, hplus⟩
    induction h with
    | done h => exact ⟨[], h ▸ .nil⟩
    | @pair c d text hc hd _ ih =>
      rw [List.mem_cons, List.mem_cons, not_or, not_or] at hplus
      obtain ⟨bytes, hbytes⟩ := ih hplus.2.2
      obtain ⟨m, hm⟩ := exists_toDigit (hc.resolve_right (Ne.symm hplus.1))
      obtain ⟨n, hn⟩ := exists_toDigit hd
      exact ⟨_, .cons hm hn hbytes⟩

theorem hex_hex (bytes : List UInt8) : Hex (hex bytes) bytes := by
  have hdigit : ∀ m : Fin 16, toDigit 16 (Nat.digitChar m) = some m.val := by decide
  induction bytes with
  | nil => exact .nil
  | cons b bytes ih =>
    have hb := b.toNat_lt
    have hhigh := hdigit ⟨b.toNat / 16, by omega⟩
    have hlow := hdigit ⟨b.toNat % 16, by omega⟩
    have hbyte : UInt8.ofNat (16 * (b.toNat / 16) + b.toNat % 16) = b := by
      rw [Nat.div_add_mod, UInt8.ofNat_toNat]
    have h := Hex.cons hhigh hlow ih
    rwa [hbyte] at h

end Reading

end Text

end Foundation
