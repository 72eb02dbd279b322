import AgentBond.Indexer.Logs

/-! # The log of the runtime

The runtime writes a frame line when a program is invoked and when it returns,
and one line for each text a program logs. The stack of active programs is known
to the runtime and not written; a program chooses its texts freely.
-/

namespace AgentBond.Indexer

open Foundation

/-- The lines of a transaction's log. -/
inductive LogLine
  /-- A program is entered. -/
  | invoke (program : Pubkey)
  /-- The innermost program ends. -/
  | success
  | failed (reason : Text)
  /-- The innermost program logs a text of its own, data, or its return value. -/
  | log (text : Text)
  | data (text : Text)
  | returned (program : Pubkey) (text : Text)
  /-- The runtime remarks on compute units and the like. -/
  | remark (word text : Text)
  | notice (text : Text)

/-- The text reads like the rest of a frame line. -/
def FrameText (text : Text) : Prop :=
  (Text.startsWith invokeWord text || Text.startsWith successWord text ||
    Text.startsWith failedWord text) = true

instance (text : Text) : Decidable (FrameText text) := inferInstanceAs (Decidable (_ = true))

def logWord : Text := "log:".toList
def dataTag : Text := "data:".toList
def returnWord : Text := "return:".toList

namespace LogLine

/-- The active programs after the line, innermost first. -/
def stack (S : List Pubkey) : LogLine → List Pubkey
  | invoke program => program :: S
  | success | failed _ => S.tail
  | _ => S

/-- When the runtime may write the line. -/
def Fits (S : List Pubkey) : LogLine → Prop
  | invoke _ => True
  | success | failed _ | log _ | data _ | returned _ _ => S ≠ []
  | remark word text => ' ' ∉ word ∧ word ≠ dataTag ∧ ¬ FrameText text
  | notice text => Text.stripPrefix programWord text = none

variable (E : Encodings)

def innermost (S : List Pubkey) : Text := (S.head?.map E.keyText).getD []

/-- The word after `Program `. -/
def word (S : List Pubkey) : LogLine → Text
  | invoke program => E.keyText program
  | success | failed _ => innermost E S
  | log _ => logWord
  | data _ => dataTag
  | returned _ _ => returnWord
  | remark word _ => word
  | notice _ => []

/-- What follows that word. -/
def text (S : List Pubkey) : LogLine → Text
  | invoke _ => invokeWord ++ ' ' :: '[' :: (Nat.toDigits 10 (S.length + 1) ++ [']'])
  | success => successWord
  | failed reason => failedWord ++ ':' :: ' ' :: reason
  | log text => text
  | data text => text
  | returned program text => E.keyText program ++ ' ' :: text
  | remark _ text => text
  | notice text => text

/-- The line as the runtime writes it. -/
def render (S : List Pubkey) : LogLine → Text
  | notice text => text
  | line => programWord ++ (line.word E S ++ ' ' :: line.text E S)

/-- A text chosen by a program that reads like the rest of a frame line. -/
def Mimics : LogLine → Prop
  | log text | data text => FrameText text
  | returned program text => FrameText (E.keyText program ++ ' ' :: text)
  | _ => False

instance (line : LogLine) : Decidable (line.Mimics E) := by
  cases line <;> unfold Mimics <;> infer_instance

/-- The event the line records, when the program is the innermost one. -/
def event (program : Pubkey) (S : List Pubkey) : LogLine → Option ProtocolEvent
  | data text => if S.head? = some program then eventOfData E text else none
  | _ => none

end LogLine

/-- Every line may be written where it stands, and every program that is entered ends. -/
def Bracketed : List Pubkey → List LogLine → Prop
  | S, [] => S = []
  | S, line :: lines => line.Fits S ∧ Bracketed (line.stack S) lines

/-- No more programs are active at once than the runtime allows. -/
def Shallow : List Pubkey → List LogLine → Prop
  | _, [] => True
  | S, line :: lines => (line.stack S).length ≤ maxStackDepth ∧ Shallow (line.stack S) lines

variable (E : Encodings) (program : Pubkey)

def rendered : List Pubkey → List LogLine → List Text
  | _, [] => []
  | S, line :: lines => line.render E S :: rendered (line.stack S) lines

/-- The events the program logs, in order. -/
def loggedEvents : List Pubkey → List LogLine → List ProtocolEvent
  | _, [] => []
  | S, line :: lines => (line.event E program S).toList ++ loggedEvents (line.stack S) lines

/-- Mimicking texts so far under the current top-level instruction, after the line. -/
def LogLine.noise (S : List Pubkey) (n : ℕ) (line : LogLine) : ℕ :=
  if line.stack S = [] then 0 else if line.Mimics E then n + 1 else n

/-- For every event the program logs, the mimicking texts before it in its top-level
instruction. -/
def noiseBefore : List Pubkey → ℕ → List LogLine → List ℕ
  | _, _, [] => []
  | S, n, line :: lines =>
    (line.event E program S).toList.map (fun _ => n) ++
      noiseBefore (line.stack S) (line.noise E S n) lines

/-! ## What a line reads as -/

variable {E program}

theorem eventOfData_eq_some {text : Text} {e : ProtocolEvent} :
    eventOfData E text = some e ↔ Text.trim text = Base64.encode e.encode := by
  have hlen : Text.utf8Len (Base64.encode e.encode) = 112 := by
    rw [Base64.utf8Len_encode, ProtocolEvent.length_encode]
    rfl
  have hok : ∀ bytes, (ProtocolEvent.decode bytes).toOption = some e ↔ bytes = e.encode := by
    intro bytes
    rw [← ProtocolEvent.decode_eq_ok]
    cases ProtocolEvent.decode bytes <;> simp [Except.toOption]
  simp only [eventOfData, Option.bind_eq_bind, Option.ite_none_left_eq_some,
    Option.bind_eq_some_iff, E.decodeBase64_eq_some, hok]
  constructor
  · rintro ⟨_, _, hb, _, rfl⟩
    exact hb
  · intro h
    rw [h, hlen]
    exact ⟨by decide, _, rfl, by simp [ProtocolEvent.length_encode], rfl⟩

theorem frameText_iff {text : Text} :
    FrameText text ↔ ∃ rest, text = invokeWord ++ rest ∨ text = successWord ++ rest ∨
      text = failedWord ++ rest := by
  simp only [FrameText, Bool.or_eq_true, Text.startsWith_iff, exists_or, or_assoc]

theorem not_frameText_of_event {text : Text} {e : ProtocolEvent} (h : eventOfData E text = some e) :
    ¬ FrameText text := by
  have hhead : (Text.trim text).head? = some 'A' := by
    obtain ⟨rest, hr⟩ := e.head_encode
    rw [eventOfData_eq_some.mp h, hr, Base64.head_encode]
    rfl
  have hno : ∀ c word, Text.isWhiteSpace c = false → c ≠ 'A' → text ≠ c :: word := by
    rintro c word hc hA rfl
    rw [Text.head_trim hc] at hhead
    exact hA (Option.some.inj hhead)
  intro hf
  rcases frameText_iff.mp hf with ⟨rest, h | h | h⟩
  · exact hno 'i' _ (by decide) (by decide) h
  · exact hno 's' _ (by decide) (by decide) h
  · exact hno 'f' _ (by decide) (by decide) h

section FrameStep

variable {R R' : List Text} {id after : Text}

theorem frameLine_word {word text : Text} (h : ' ' ∉ word) :
    frameLine R (programWord ++ (word ++ ' ' :: text)) = frameStep R word text := by
  simp [frameLine, Text.splitOnce_append h]

theorem frameStep_eq_none : frameStep R id after = none ↔ ¬ FrameText after := by
  unfold frameStep FrameText
  cases Text.startsWith invokeWord after <;> cases Text.startsWith successWord after <;>
    cases Text.startsWith failedWord after <;> simp

theorem pushFrame_cases : pushFrame R id = [] ∨ pushFrame R id = id :: R := by
  unfold pushFrame
  split
  · exact .inl rfl
  · exact .inr rfl

theorem frameStep_cases (h : frameStep R id after = some R') :
    R' = [] ∨ R' = id :: R ∨ R = id :: R' := by
  unfold frameStep at h
  split at h
  · obtain rfl := Option.some.inj h
    split
    · split
      · exact .inl rfl
      · exact pushFrame_cases.imp_right .inl
    · exact pushFrame_cases.imp_right .inl
  · split at h
    · obtain rfl := Option.some.inj h
      split
      · rename_i ht
        obtain ⟨rest, rfl⟩ := List.head?_eq_some_iff.mp ht
        exact .inr (.inr rfl)
      · exact .inl rfl
    · cases h

theorem parseInvokeDepth_invoke (program : Pubkey) (S : List Pubkey) :
    parseInvokeDepth ((LogLine.invoke program).text E S) =
      if S.length + 1 < 2 ^ 64 then some (S.length + 1) else none := by
  have hd : ']' ∉ Nat.toDigits 10 (S.length + 1) := fun hc =>
    absurd (Nat.isDigit_of_mem_toDigits (by decide) (by decide) hc) (by decide)
  have hopen : ((LogLine.invoke program).text E S).idxOf? '[' = some 7 :=
    Text.idxOf?_append (show '[' ∉ invokeWord ++ [' '] by decide) _
  have hclose : ((LogLine.invoke program).text E S).idxOf? ']' =
      some (8 + (Nat.toDigits 10 (S.length + 1)).length) := by
    have hw : ']' ∉ invokeWord ++ ' ' :: '[' :: Nat.toDigits 10 (S.length + 1) := by
      simp only [List.mem_append, List.mem_cons, hd, or_false, not_or]
      decide
    have hlen : invokeWord.length = 6 := rfl
    have hi := Text.idxOf?_append hw []
    simp only [List.append_assoc, List.cons_append, List.length_append, List.length_cons,
      hlen] at hi
    rw [LogLine.text, hi]
    congr 1
    omega
  have hcut : (((LogLine.invoke program).text E S).drop 8).take
      (Nat.toDigits 10 (S.length + 1)).length = Nat.toDigits 10 (S.length + 1) :=
    List.take_left
  have hne : ¬ 8 + (Nat.toDigits 10 (S.length + 1)).length ≤ 8 := by
    have := List.length_pos_iff.mpr (Nat.toDigits_ne_nil (n := S.length + 1) (b := 10))
    omega
  rw [parseInvokeDepth, hopen, hclose]
  simp only [hne, if_false, Nat.add_sub_cancel_left, hcut, Text.parseUsize_toDigits]

theorem frameStep_invoke (program : Pubkey) (S : List Pubkey) :
    frameStep R id ((LogLine.invoke program).text E S) =
      some (if (S.length + 1 < 2 ^ 64 → R.length = S.length) ∧ R.length < maxStackDepth
        then id :: R else []) := by
  have hi : Text.startsWith invokeWord ((LogLine.invoke program).text E S) = true :=
    Text.startsWith_append _ _
  have hp : pushFrame R id = if R.length < maxStackDepth then id :: R else [] := by
    simp only [pushFrame, ← Nat.not_le, ite_not]
  rw [frameStep, if_pos hi, parseInvokeDepth_invoke]
  by_cases hs : S.length + 1 < 2 ^ 64
  · by_cases hr : R.length = S.length
    · simp only [hs, if_true, hr, ne_eq, not_true_eq_false, if_false, hp, imp_true_iff, true_and]
    · have hd : S.length + 1 ≠ R.length + 1 := fun he => hr (Nat.succ_inj.mp he).symm
      simp only [hs, if_true, if_pos hd, hr, forall_const, false_and, if_false]
  · simp only [hs, if_false, hp, false_imp_iff, true_and]

theorem frameStep_end (h : after = successWord ∨ ∃ reason, after = failedWord ++ reason) :
    frameStep R id after = some (if R.head? = some id then R.tail else []) := by
  rcases h with rfl | ⟨reason, rfl⟩
  · rfl
  · rfl

end FrameStep

end AgentBond.Indexer
