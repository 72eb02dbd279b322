import AgentBond.App.Planner
import AgentBond.Foundation.HexPairs

/-! # Hexadecimal fields of requests

Hashes, keys and signatures come in requests as hexadecimal text. A decoder is
exact if it returns the value that the text denotes, and a validation error where
it denotes none; the decoders are exact unless a sign is read in place of a digit
or a pair is cut through a character.
-/

namespace AgentBond

open Foundation Text Panicking

def invalidHex : AppError := .validation "invalid hex"

/-- `s.trim().strip_prefix("0x").unwrap_or(s.trim())` -/
def hexBody (s : Text) : Text := (stripPrefix ['0', 'x'] (trim s)).getD (trim s)

def hexDecode (s : Text) : Panicking AppError (List UInt8) := do
  let s := hexBody s
  if utf8Len s % 2 ≠ 0 then throw invalidHex
  (List.range' 0 ((utf8Len s + 1) / 2) 2).mapM fun i => do
    let pair ← str s i (i + 2)
    checked (okOr (parseU8 16 pair) invalidHex)

/-- The decoders of a fixed number of bytes. -/
def hexBytes (n : ℕ) (s : Text) (label : String) : Panicking AppError (Bytes n) := do
  let bytes ← hexDecode s
  if bytes.length ≠ n then throw (.validation (label ++ " must be " ++ toString n ++ " bytes"))
  copy n bytes

def hex32 : Text → String → Panicking AppError (Bytes 32) := hexBytes 32

def hex64 : Text → String → Panicking AppError (Bytes 64) := hexBytes 64

/-- The code returns the value that its input denotes, and a validation error if there is none. -/
structure Exact {α : Type} (x : Panicking AppError α) (denotes : α → Prop) : Prop where
  returns : ∃ r, Returns x r
  ok : ∀ a, Returns x (.ok a) ↔ denotes a
  error : ∀ e, Returns x (.error e) → ∃ text, e = .validation text

/-- Code that returns what its input denotes is exact if it fails on the other inputs. -/
theorem exact_iff {α : Type} {x : Panicking AppError α} {denotes : α → Prop}
    (h : ∀ a, denotes a → Returns x (.ok a)) :
    Exact x denotes ↔ (∃ text, Returns x (.error (.validation text))) ∨ ∃ a, denotes a := by
  constructor
  · rintro ⟨⟨r, hr⟩, hok, herror⟩
    cases r with
    | error e =>
      obtain ⟨text, rfl⟩ := herror e hr
      exact .inl ⟨text, hr⟩
    | ok a => exact .inr ⟨a, (hok a).mp hr⟩
  · rintro (⟨text, ht⟩ | ⟨a, ha⟩)
    · refine ⟨⟨_, ht⟩, fun b => ⟨fun hb => ?_, h b⟩, fun e he => ?_⟩
      · exact nomatch hb.unique ht
      · exact ⟨text, Except.error.inj (he.unique ht)⟩
    · refine ⟨⟨_, h a ha⟩, fun b => ⟨fun hb => ?_, h b⟩, fun e he => ?_⟩
      · cases hb.unique (h a ha)
        exact ha
      · exact nomatch he.unique (h a ha)

section Decoders

variable {s : Text} {label : String} {n : ℕ} {bytes : List UInt8}

theorem hexDecode_odd (h : utf8Len (hexBody s) % 2 ≠ 0) :
    Returns (hexDecode s) (.error invalidHex) := by
  rw [hexDecode, if_pos h]
  exact (returns_throw invalidHex).bind_error

theorem hexDecode_even (h : utf8Len (hexBody s) = 2 * n) :
    hexDecode s = readPairs invalidHex (hexBody s) n := by
  have hsteps : (utf8Len (hexBody s) + 1) / 2 = n := by omega
  rw [hexDecode, if_neg (by omega), hsteps]
  rfl

theorem hexDecode_refused (h : PairsThen Refused (hexBody s)) :
    Returns (hexDecode s) (.error invalidHex) := by
  by_cases hodd : utf8Len (hexBody s) % 2 = 0
  · have hn : utf8Len (hexBody s) = 2 * (utf8Len (hexBody s) / 2) := by omega
    rw [hexDecode_even hn]
    exact readPairs_refused h hn
  · exact hexDecode_odd hodd

theorem hexDecode_hex (h : Hex (hexBody s) bytes) : Returns (hexDecode s) (.ok bytes) := by
  rw [hexDecode_even (utf8Len_of_hex h)]
  exact readPairs_hex h (utf8Len_of_hex h)

theorem hexDecode_pairs (hn : utf8Len (hexBody s) = 2 * n) (h : PairsThen (· = []) (hexBody s)) :
    ∃ bytes, Returns (hexDecode s) (.ok bytes) ∧ bytes.length = n := by
  obtain ⟨bytes, hbytes⟩ := readPairs_pairs (e := invalidHex) h hn
  refine ⟨bytes, ?_, ?_⟩
  · rwa [hexDecode_even hn]
  · exact (returns_mapM_ok.mp hbytes).length_eq.symm.trans List.length_range'

theorem hexDecode_cut (hn : utf8Len (hexBody s) = 2 * n) (h : PairsThen Cut (hexBody s)) :
    Panics (hexDecode s) := by
  rw [hexDecode_even hn]
  exact readPairs_cut h hn

theorem hexBytes_error {e : AppError} (h : Returns (hexDecode s) (.error e)) :
    Returns (hexBytes n s label) (.error e) :=
  h.bind_error

theorem hexBytes_ok {v : Bytes n} (h : Returns (hexDecode s) (.ok v.toList)) :
    Returns (hexBytes n s label) (.ok v) := by
  apply h.bind_ok
  rw [if_neg (not_not.mpr v.toList_length)]
  exact returns_copy v

theorem hexBytes_length (h : Returns (hexDecode s) (.ok bytes)) (hlen : bytes.length ≠ n) :
    Returns (hexBytes n s label)
      (.error (.validation (label ++ " must be " ++ toString n ++ " bytes"))) := by
  apply h.bind_ok
  rw [if_pos hlen]
  exact (returns_throw _).bind_error

theorem hexDecode_error_iff : (∃ text, Returns (hexDecode s) (.error (.validation text))) ↔
    utf8Len (hexBody s) % 2 ≠ 0 ∨ PairsThen Refused (hexBody s) := by
  constructor
  · rintro ⟨text, ht⟩
    by_cases hodd : utf8Len (hexBody s) % 2 ≠ 0
    · exact .inl hodd
    have hn : utf8Len (hexBody s) = 2 * (utf8Len (hexBody s) / 2) := by omega
    rcases pairsThen_cases (hexBody s) hn with h | h | h
    · obtain ⟨bytes, hbytes, -⟩ := hexDecode_pairs hn h
      exact nomatch hbytes.unique ht
    · exact .inr h
    · exact absurd ht (hexDecode_cut hn h).not_returns
  · rintro (h | h)
    · exact ⟨_, hexDecode_odd h⟩
    · exact ⟨_, hexDecode_refused h⟩

theorem exact_hexDecode : Exact (hexDecode s) (Hex (hexBody s)) ↔
    utf8Len (hexBody s) % 2 ≠ 0 ∨ PairsThen Refused (hexBody s) ∨
      PairsThen (· = []) (hexBody s) ∧ '+' ∉ hexBody s := by
  rw [exact_iff fun _ => hexDecode_hex, hexDecode_error_iff, exists_hex_iff, or_assoc]

theorem exists_bytes_iff : (∃ v : Bytes n, Hex (hexBody s) v.toList) ↔
    (PairsThen (· = []) (hexBody s) ∧ '+' ∉ hexBody s) ∧ utf8Len (hexBody s) = 2 * n := by
  rw [← exists_hex_iff]
  constructor
  · rintro ⟨v, hv⟩
    exact ⟨⟨_, hv⟩, by rw [utf8Len_of_hex hv, v.toList_length]⟩
  · rintro ⟨⟨bytes, hbytes⟩, hn⟩
    have hlen : bytes.length = n := by
      have h := utf8Len_of_hex hbytes
      omega
    exact ⟨⟨bytes, hlen⟩, hbytes⟩

theorem hexBytes_error_iff : (∃ text, Returns (hexBytes n s label) (.error (.validation text))) ↔
    utf8Len (hexBody s) % 2 ≠ 0 ∨ PairsThen Refused (hexBody s) ∨
      PairsThen (· = []) (hexBody s) ∧ utf8Len (hexBody s) ≠ 2 * n := by
  constructor
  · rintro ⟨text, ht⟩
    by_cases hodd : utf8Len (hexBody s) % 2 ≠ 0
    · exact .inl hodd
    have hm : utf8Len (hexBody s) = 2 * (utf8Len (hexBody s) / 2) := by omega
    rcases pairsThen_cases (hexBody s) hm with h | h | h
    · refine .inr (.inr ⟨h, fun hlen => ?_⟩)
      obtain ⟨bytes, hbytes, hn⟩ := hexDecode_pairs hlen h
      exact nomatch (hexBytes_ok (v := ⟨bytes, hn⟩) hbytes).unique ht
    · exact .inr (.inl h)
    · exact absurd ht (hexDecode_cut hm h).bind.not_returns
  · rintro (h | h | ⟨h, hlen⟩)
    · exact ⟨_, hexBytes_error (hexDecode_odd h)⟩
    · exact ⟨_, hexBytes_error (hexDecode_refused h)⟩
    · by_cases hodd : utf8Len (hexBody s) % 2 ≠ 0
      · exact ⟨_, hexBytes_error (hexDecode_odd hodd)⟩
      · obtain ⟨bytes, hbytes, hbytes'⟩ :=
          hexDecode_pairs (n := utf8Len (hexBody s) / 2) (by omega) h
        exact ⟨_, hexBytes_length hbytes (by omega)⟩

theorem exact_hexBytes : Exact (hexBytes n s label) (fun v => Hex (hexBody s) v.toList) ↔
    utf8Len (hexBody s) % 2 ≠ 0 ∨ PairsThen Refused (hexBody s) ∨
      PairsThen (· = []) (hexBody s) ∧ ('+' ∉ hexBody s ∨ utf8Len (hexBody s) ≠ 2 * n) := by
  rw [exact_iff fun _ h => hexBytes_ok (hexDecode_hex h), hexBytes_error_iff, exists_bytes_iff]
  tauto

theorem hexBody_hex (bytes : List UInt8) : hexBody (hex bytes) = hex bytes := by
  have hdigit {c : Char} (hc : c ∈ hex bytes) : isWhiteSpace c = false ∧ c ≠ 'x' := by
    have h := isHexDigit_iff.mp (isHexDigit_of_isLowerHexDigit (isLowerHexDigit_of_mem_hex hc))
    refine ⟨?_, ?_⟩
    · simp only [isWhiteSpace, Bool.or_eq_false_iff, Bool.and_eq_false_iff, decide_eq_false_iff_not,
        beq_eq_false_iff_ne]
      omega
    · rintro rfl
      simp at h
  have hstart {text : Text} (ht : ∀ c ∈ text, c ∈ hex bytes) : trimStart text = text := by
    cases text with
    | nil => rfl
    | cons c text => simp [trimStart, hdigit (ht c List.mem_cons_self)]
  have htrim : trim (hex bytes) = hex bytes := by
    rw [trim, hstart fun c hc => hc, hstart fun c hc => List.mem_reverse.mp hc,
      List.reverse_reverse]
  have hprefix : stripPrefix ['0', 'x'] (hex bytes) = none := by
    rw [Option.eq_none_iff_forall_ne_some]
    intro rest hrest
    have hx : 'x' ∈ hex bytes := by simp [stripPrefix_eq_some.mp hrest]
    exact (hdigit hx).2 rfl
  rw [hexBody, htrim, hprefix, Option.getD_none]

end Decoders

end AgentBond
