import Mathlib.Algebra.GroupWithZero.Nat
import Mathlib.Data.List.Basic

/-! # Text

The operations of the standard library on text that line parsers use, on lists
of characters: prefixes, the first separator, trimming, and decimal numbers.
-/

namespace Foundation

/-- A text is the list of its characters. -/
abbrev Text := List Char

namespace Text

/-- What follows the prefix. -/
def stripPrefix : Text → Text → Option Text
  | [], text => some text
  | _ :: _, [] => none
  | c :: pre, d :: text => if c = d then stripPrefix pre text else none

/-- The parts before and after the first separator. -/
def splitOnce (sep : Char) : Text → Option (Text × Text)
  | [] => none
  | c :: text =>
    if c = sep then some ([], text) else (splitOnce sep text).map fun (w, t) => (c :: w, t)

/-- The parts before and after the last separator. -/
def rsplitOnce (sep : Char) (text : Text) : Option (Text × Text) :=
  (splitOnce sep text.reverse).map fun (w, t) => (t.reverse, w.reverse)

def startsWith (pre text : Text) : Bool := (stripPrefix pre text).isSome

/-- The bytes of the text in UTF-8. -/
def utf8Len (text : Text) : ℕ := (text.map Char.utf8Size).sum

/-- The text in UTF-8. -/
def utf8 (text : Text) : List UInt8 := text.flatMap String.utf8EncodeChar

/-- Two lower-case digits a byte. -/
def hex (bytes : List UInt8) : Text :=
  bytes.flatMap fun b => [Nat.digitChar (b.toNat / 16), Nat.digitChar (b.toNat % 16)]

def isHexDigit (c : Char) : Bool :=
  c.isDigit || ('a' ≤ c && c ≤ 'f') || ('A' ≤ c && c ≤ 'F')

def isLowerHexDigit (c : Char) : Bool := c.isDigit || ('a' ≤ c && c ≤ 'f')

/-- The characters with the White_Space property. -/
def isWhiteSpace (c : Char) : Bool :=
  let n := c.toNat
  (9 ≤ n && n ≤ 13) || n == 0x20 || n == 0x85 || n == 0xA0 || n == 0x1680 ||
    (0x2000 ≤ n && n ≤ 0x200A) || n == 0x2028 || n == 0x2029 || n == 0x202F || n == 0x205F ||
    n == 0x3000

def trimStart (text : Text) : Text := text.dropWhile isWhiteSpace

def trim (text : Text) : Text := (trimStart (trimStart text).reverse).reverse

/-- A word of 64 bits in decimal, with an optional sign `+`. -/
def parseUsize (text : Text) : Option ℕ :=
  let digits := (stripPrefix ['+'] text).getD text
  if digits = [] ∨ digits.all Char.isDigit = false then none
  else if Nat.ofDigitChars 10 digits 0 < 2 ^ 64 then some (Nat.ofDigitChars 10 digits 0) else none

/-- Whether a number is negative, and its digits. -/
def splitSign : Text → Bool × Text
  | '-' :: digits => (true, digits)
  | '+' :: digits => (false, digits)
  | digits => (false, digits)

/-- A word of 32 bits in decimal, with an optional sign. -/
def parseI32 (text : Text) : Option Int :=
  let digits := (splitSign text).2
  if digits = [] ∨ digits.all Char.isDigit = false then none
  else
    let n : Int := Nat.ofDigitChars 10 digits 0
    let n := if (splitSign text).1 then -n else n
    if -2147483648 ≤ n ∧ n ≤ 2147483647 then some n else none

@[simp] theorem stripPrefix_append (pre text : Text) :
    stripPrefix pre (pre ++ text) = some text := by
  induction pre with
  | nil => rfl
  | cons c pre ih => simp [stripPrefix, ih]

theorem stripPrefix_eq_some {pre text rest : Text} :
    stripPrefix pre text = some rest ↔ text = pre ++ rest := by
  constructor
  · intro h
    fun_induction stripPrefix pre text with
    | case1 text => exact Option.some_inj.mp h
    | case2 => cases h
    | case3 c pre text ih => rw [ih h, List.cons_append]
    | case4 => cases h
  · rintro rfl
    exact stripPrefix_append pre rest

theorem splitOnce_append {sep : Char} {word : Text} (h : sep ∉ word) (rest : Text) :
    splitOnce sep (word ++ sep :: rest) = some (word, rest) := by
  induction word with
  | nil => simp [splitOnce]
  | cons c word ih =>
    rw [List.mem_cons, not_or] at h
    simp [splitOnce, Ne.symm h.1, ih h.2]

theorem idxOf?_append {sep : Char} {word : Text} (h : sep ∉ word) (rest : Text) :
    (word ++ sep :: rest).idxOf? sep = some word.length := by
  induction word with
  | nil => simp [List.idxOf?_cons]
  | cons c word ih =>
    rw [List.mem_cons, not_or] at h
    simp [List.idxOf?_cons, Ne.symm h.1, ih h.2]

theorem startsWith_iff {pre text : Text} :
    startsWith pre text = true ↔ ∃ rest, text = pre ++ rest := by
  simp only [startsWith, Option.isSome_iff_exists, stripPrefix_eq_some]

@[simp] theorem startsWith_append (pre text : Text) : startsWith pre (pre ++ text) = true :=
  startsWith_iff.mpr ⟨text, rfl⟩

theorem head_trim {c : Char} {text : Text} (h : isWhiteSpace c = false) :
    (trim (c :: text)).head? = some c := by
  have hs : trimStart (c :: text) = c :: text := by simp [trimStart, h]
  rw [trim, hs, List.reverse_cons, trimStart, List.dropWhile_append]
  split
  · simp [h]
  · simp

theorem parseUsize_toDigits (n : ℕ) :
    parseUsize (Nat.toDigits 10 n) = if n < 2 ^ 64 then some n else none := by
  have hd : ∀ c ∈ Nat.toDigits 10 n, c.isDigit = true := fun c hc =>
    Nat.isDigit_of_mem_toDigits (by decide) (by decide) hc
  have hp : stripPrefix ['+'] (Nat.toDigits 10 n) = none := by
    rw [Option.eq_none_iff_forall_ne_some]
    intro rest hr
    have hc := hd '+' (by rw [stripPrefix_eq_some.mp hr]; exact List.mem_cons_self)
    exact absurd hc (by decide)
  have ho : Nat.ofDigitChars 10 (Nat.toDigits 10 n) 0 = n :=
    Nat.ofDigitChars_toDigits (by decide) (by decide)
  have ha : (Nat.toDigits 10 n).all Char.isDigit = true := List.all_eq_true.mpr hd
  simp only [parseUsize, hp, ho, ha, Nat.toDigits_ne_nil, Option.getD_none, or_self,
    Bool.true_eq_false, if_false]

theorem rsplitOnce_append {sep : Char} {word : Text} (h : sep ∉ word) (rest : Text) :
    rsplitOnce sep (rest ++ sep :: word) = some (rest, word) := by
  have hrev : (rest ++ sep :: word).reverse = word.reverse ++ sep :: rest.reverse := by simp
  rw [rsplitOnce, hrev, splitOnce_append (by simpa using h)]
  simp

theorem splitSign_of_digits {digits : Text} (h : ∀ c ∈ digits, c.isDigit = true) :
    splitSign digits = (false, digits) := by
  unfold splitSign
  split
  · exact absurd (h '-' List.mem_cons_self) (by decide)
  · exact absurd (h '+' List.mem_cons_self) (by decide)
  · rfl

theorem parseI32_toDigits {n : ℕ} (h : n ≤ 2147483647) :
    parseI32 (Nat.toDigits 10 n) = some (n : Int) := by
  have hd : ∀ c ∈ Nat.toDigits 10 n, c.isDigit = true := fun c hc =>
    Nat.isDigit_of_mem_toDigits (by decide) (by decide) hc
  have ho : Nat.ofDigitChars 10 (Nat.toDigits 10 n) 0 = n :=
    Nat.ofDigitChars_toDigits (by decide) (by decide)
  have hne : Nat.toDigits 10 n ≠ [] := Nat.toDigits_ne_nil
  have ha : (Nat.toDigits 10 n).all Char.isDigit = true := List.all_eq_true.mpr hd
  simp only [parseI32, splitSign_of_digits hd, hne, ha, ho, or_self, Bool.true_eq_false,
    Bool.false_eq_true, if_false]
  exact if_pos (by omega)

theorem isLowerHexDigit_digitChar {n : ℕ} (h : n < 16) : isLowerHexDigit n.digitChar = true := by
  have hall : ∀ n : Fin 16, isLowerHexDigit (Nat.digitChar n) = true := by decide
  exact hall ⟨n, h⟩

theorem isLowerHexDigit_of_mem_hex {bytes : List UInt8} {c : Char} (h : c ∈ hex bytes) :
    isLowerHexDigit c = true := by
  obtain ⟨b, -, hc⟩ := List.mem_flatMap.mp h
  have hb := b.toNat_lt
  rw [List.mem_cons, List.mem_singleton] at hc
  rcases hc with rfl | rfl
  · exact isLowerHexDigit_digitChar (by omega)
  · exact isLowerHexDigit_digitChar (by omega)

theorem isHexDigit_of_isLowerHexDigit {c : Char} (h : isLowerHexDigit c = true) :
    isHexDigit c = true := by
  rw [isHexDigit, ← isLowerHexDigit, h, Bool.true_or]

theorem length_le_utf8Len (text : Text) : text.length ≤ text.utf8Len := by
  induction text with
  | nil => exact Nat.le_refl 0
  | cons c text ih =>
    have hpos := Char.utf8Size_pos c
    simp only [utf8Len, List.map_cons, List.sum_cons, List.length_cons] at ih ⊢
    omega

end Text

end Foundation
