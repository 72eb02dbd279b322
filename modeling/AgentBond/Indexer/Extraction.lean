import AgentBond.Indexer.RuntimeLog

/-! # Soundness of event extraction

The rebuilt stack holds the innermost active programs between phantom frames, so
no line of another program is attributed to this one.
-/

namespace AgentBond.Indexer

open Foundation

variable {E : Encodings} {program : Pubkey} {R R' : List Text} {S : List Pubkey} {line : LogLine}

/-! ## Reading one line -/

theorem innermost_plain (S : List Pubkey) :
    ' ' ∉ LogLine.innermost E S ∧ ':' ∉ LogLine.innermost E S := by
  cases S with
  | nil => simp [LogLine.innermost]
  | cons p S => exact E.keyText_plain p

theorem ne_of_plain {w tag : Text} (hw : ' ' ∉ w ∧ ':' ∉ w) (ht : ':' ∈ tag) : w ≠ tag := by
  rintro rfl
  exact hw.2 ht

theorem LogLine.space_not_mem_word (h : line.Fits S) : ' ' ∉ line.word E S := by
  cases line with
  | invoke p => exact (E.keyText_plain p).1
  | success => exact (innermost_plain S).1
  | failed reason => exact (innermost_plain S).1
  | log text => exact (by decide : ' ' ∉ logWord)
  | data text => exact (by decide : ' ' ∉ dataTag)
  | returned p text => exact (by decide : ' ' ∉ returnWord)
  | remark word text => exact h.1
  | notice text => exact List.not_mem_nil

theorem LogLine.render_eq (hn : ∀ text, line ≠ .notice text) :
    line.render E S = programWord ++ (line.word E S ++ ' ' :: line.text E S) := by
  cases line <;> first | rfl | exact absurd rfl (hn _)

theorem frameLine_render (h : line.Fits S) (hn : ∀ text, line ≠ .notice text) :
    frameLine R (line.render E S) = frameStep R (line.word E S) (line.text E S) := by
  rw [LogLine.render_eq hn, frameLine_word (LogLine.space_not_mem_word h)]

theorem frameLine_notice {text : Text} (h : (LogLine.notice text).Fits S) :
    frameLine R ((LogLine.notice text).render E S) = none := by
  rw [LogLine.render, frameLine, h]
  rfl

theorem stripPrefix_dataWord {word text data : Text} (hw : ' ' ∉ word)
    (h : Text.stripPrefix dataWord (programWord ++ (word ++ ' ' :: text)) = some data) :
    word = dataTag ∧ text = data := by
  have ht : ' ' ∉ dataTag := by decide
  have hd : dataWord ++ data = programWord ++ (dataTag ++ ' ' :: data) := rfl
  have he := Text.stripPrefix_eq_some.mp h
  rw [hd] at he
  have hs := congrArg (Text.splitOnce ' ') (List.append_cancel_left he)
  rw [Text.splitOnce_append hw, Text.splitOnce_append ht] at hs
  cases hs
  exact ⟨rfl, rfl⟩

theorem data_of_stripPrefix {data : Text} (h : line.Fits S)
    (hd : Text.stripPrefix dataWord (line.render E S) = some data) : line = .data data := by
  have hcolon : ':' ∈ dataTag := by decide
  by_cases hn : ∀ text, line ≠ .notice text
  · rw [LogLine.render_eq hn] at hd
    obtain ⟨hw, rfl⟩ := stripPrefix_dataWord (LogLine.space_not_mem_word h) hd
    cases line with
    | invoke p => exact absurd hw (ne_of_plain (E.keyText_plain p) hcolon)
    | success => exact absurd hw (ne_of_plain (innermost_plain S) hcolon)
    | failed reason => exact absurd hw (ne_of_plain (innermost_plain S) hcolon)
    | log text => exact absurd hw (by decide : logWord ≠ dataTag)
    | data text => rfl
    | returned p text => exact absurd hw (by decide : returnWord ≠ dataTag)
    | remark word text => exact absurd hw h.2.1
    | notice text => exact absurd rfl (hn text)
  · push Not at hn
    obtain ⟨text, rfl⟩ := hn
    rw [LogLine.render, Text.stripPrefix_eq_some] at hd
    have hp : Text.stripPrefix programWord text = some (dataTag ++ ' ' :: data) :=
      Text.stripPrefix_eq_some.mpr hd
    rw [h] at hp
    cases hp

theorem eventOfLine_data (text : Text) :
    eventOfLine E program R ((LogLine.data text).render E S) =
      if R.head? = some (E.keyText program) then eventOfData E text else none := by
  have hd : Text.stripPrefix dataWord ((LogLine.data text).render E S) = some text :=
    Text.stripPrefix_append dataWord text
  rw [eventOfLine, hd]
  cases R with
  | nil => rfl
  | cons top R => simp [ite_not]

/-- The reader takes an event from a data line only, under the program on its stack. -/
theorem eventOfLine_eq_some {e : ProtocolEvent} (h : line.Fits S) :
    eventOfLine E program R (line.render E S) = some e ↔
      ∃ text, line = .data text ∧ R.head? = some (E.keyText program) ∧
        eventOfData E text = some e := by
  constructor
  · intro he
    obtain ⟨data, hd, -⟩ := Option.bind_eq_some_iff.mp he
    obtain rfl := data_of_stripPrefix h hd
    rw [eventOfLine_data, Option.ite_none_right_eq_some] at he
    exact ⟨data, rfl, he⟩
  · rintro ⟨text, rfl, ht, he⟩
    rw [eventOfLine_data, if_pos ht, he]

/-- What the reader makes of a line: its new stack, and an event. -/
def readLine (E : Encodings) (program : Pubkey) (R : List Text) (log : Text) :
    List Text × Option ProtocolEvent :=
  match frameLine R log with
  | some R' => (R', none)
  | none => (R, eventOfLine E program R log)

/-- The lines the runtime writes when a program is entered or ends. -/
def LogLine.IsFrame : LogLine → Prop
  | invoke _ | success | failed _ => True
  | _ => False

/-! ## The rebuilt stack -/

/-- A frame that no program has: program texts, not keys, have a colon. -/
def Phantom (id : Text) : Prop := ':' ∈ id

/-- The frames of programs on the rebuilt stack are the innermost active programs, each at its
depth while depths fit a word; phantoms stand anywhere. -/
inductive Aligned (E : Encodings) : List Text → List Pubkey → Prop

  | lost (S : List Pubkey) : Aligned E [] S

  | phantom {id : Text} {R : List Text} {S : List Pubkey} : Phantom id → Aligned E R S →
      Aligned E (id :: R) S

  | frame {p : Pubkey} {R : List Text} {S : List Pubkey} :
      (S.length + 1 < 2 ^ 64 → R.length = S.length) → Aligned E R S →
      Aligned E (E.keyText p :: R) (p :: S)

theorem not_phantom_keyText (p : Pubkey) : ¬ Phantom (E.keyText p) := (E.keyText_plain p).2

namespace Aligned

theorem top {p : Pubkey} (h : Aligned E (E.keyText p :: R) S) :
    ∃ S', S = p :: S' ∧ Aligned E R S' ∧ (S'.length + 1 < 2 ^ 64 → R.length = S'.length) := by
  generalize hid : E.keyText p = id at h
  cases h with
  | phantom hp _ => exact absurd (hid ▸ hp) (not_phantom_keyText p)
  | frame hl ha =>
    obtain rfl := E.keyText_injective hid
    exact ⟨_, rfl, ha, hl⟩

theorem pop {id : Text} (hid : Phantom id) (h : Aligned E (id :: R) S) : Aligned E R S := by
  cases h with
  | phantom _ ha => exact ha
  | frame => exact absurd hid (not_phantom_keyText _)

end Aligned

theorem readLine_of_frameLine {log : Text} (h : frameLine R log = some R') :
    readLine E program R log = (R', none) := by
  rw [readLine, h]

theorem readLine_of_none {log : Text} (h : frameLine R log = none) :
    readLine E program R log = (R, eventOfLine E program R log) := by
  rw [readLine, h]

theorem readLine_invoke (p : Pubkey) :
    readLine E program R ((LogLine.invoke p).render E S) =
      (if (S.length + 1 < 2 ^ 64 → R.length = S.length) ∧ R.length < maxStackDepth
        then E.keyText p :: R else [], none) := by
  apply readLine_of_frameLine
  rw [frameLine_render (show (LogLine.invoke p).Fits S from trivial) (by simp)]
  exact frameStep_invoke p S

theorem readLine_end (p : Pubkey) (hl : line = .success ∨ ∃ reason, line = .failed reason) :
    readLine E program R (line.render E (p :: S)) =
      (if R.head? = some (E.keyText p) then R.tail else [], none) := by
  apply readLine_of_frameLine
  rcases hl with rfl | ⟨reason, rfl⟩
  · rw [frameLine_render (by simp [LogLine.Fits]) (by simp)]
    exact frameStep_end (.inl rfl)
  · rw [frameLine_render (by simp [LogLine.Fits]) (by simp)]
    exact frameStep_end (.inr ⟨_, rfl⟩)

/-- A line other than a frame line reads as one exactly when its text mimics one, and then it
clears the stack or pushes or pops a phantom. -/
theorem frameLine_cases (hl : ¬ line.IsFrame) (hf : line.Fits S) :
    (¬ line.Mimics E ∧ frameLine R (line.render E S) = none) ∨
      (line.Mimics E ∧ ∃ R', frameLine R (line.render E S) = some R' ∧
        (R' = [] ∨ ∃ id, Phantom id ∧ (R' = id :: R ∨ R = id :: R'))) := by
  have htag : ∀ {tag text : Text}, Phantom tag →
      (¬ FrameText text ∧ frameStep R tag text = none) ∨
        (FrameText text ∧ ∃ R', frameStep R tag text = some R' ∧
          (R' = [] ∨ ∃ id, Phantom id ∧ (R' = id :: R ∨ R = id :: R'))) := by
    intro tag text ht
    by_cases hm : FrameText text
    · obtain ⟨R', hr⟩ := Option.ne_none_iff_exists'.mp fun hn => frameStep_eq_none.mp hn hm
      exact .inr ⟨hm, R', hr, (frameStep_cases hr).imp_right fun h => ⟨tag, ht, h⟩⟩
    · exact .inl ⟨hm, frameStep_eq_none.mpr hm⟩
  cases line with
  | invoke p => exact absurd trivial hl
  | success => exact absurd trivial hl
  | failed reason => exact absurd trivial hl
  | log text =>
    rw [frameLine_render hf (by simp)]
    exact htag (by decide : ':' ∈ logWord)
  | data text =>
    rw [frameLine_render hf (by simp)]
    exact htag (by decide : ':' ∈ dataTag)
  | returned p text =>
    rw [frameLine_render hf (by simp)]
    exact htag (by decide : ':' ∈ returnWord)
  | remark word text =>
    rw [frameLine_render hf (by simp)]
    exact .inl ⟨id, frameStep_eq_none.mpr hf.2.2⟩
  | notice text => exact .inl ⟨id, frameLine_notice hf⟩

theorem LogLine.stack_of_not_isFrame (hl : ¬ line.IsFrame) : line.stack S = S := by
  cases line <;> first | rfl | exact absurd trivial hl

theorem Aligned.readLine (program : Pubkey) (ha : Aligned E R S) (hf : line.Fits S) :
    Aligned E (readLine E program R (line.render E S)).1 (line.stack S) := by
  have hend : ∀ p S', S = p :: S' → (line = .success ∨ ∃ reason, line = .failed reason) →
      Aligned E (Indexer.readLine E program R (line.render E S)).1 S' := by
    rintro p S' rfl hl
    rw [readLine_end p hl]
    split
    · rename_i ht
      obtain ⟨R', rfl⟩ := List.head?_eq_some_iff.mp ht
      obtain ⟨_, hs, ha', -⟩ := ha.top
      cases hs
      exact ha'
    · exact .lost S'
  by_cases hl : line.IsFrame
  · cases line with
    | invoke p =>
      rw [readLine_invoke]
      split
      · rename_i h
        exact .frame h.1 ha
      · exact .lost _
    | success =>
      obtain ⟨p, S', rfl⟩ := List.exists_cons_of_ne_nil hf
      exact hend p S' rfl (.inl rfl)
    | failed reason =>
      obtain ⟨p, S', rfl⟩ := List.exists_cons_of_ne_nil hf
      exact hend p S' rfl (.inr ⟨reason, rfl⟩)
    | _ => cases hl
  · rw [LogLine.stack_of_not_isFrame hl]
    rcases frameLine_cases hl hf with ⟨-, hn⟩ | ⟨-, R', hr, hR⟩
    · rw [readLine_of_none hn]
      exact ha
    · rw [readLine_of_frameLine hr]
      rcases hR with rfl | ⟨id, hid, rfl | rfl⟩
      · exact .lost S
      · exact .phantom hid ha
      · exact ha.pop hid

theorem event_of_readLine {e : ProtocolEvent} (ha : Aligned E R S) (hf : line.Fits S)
    (he : (readLine E program R (line.render E S)).2 = some e) :
    line.event E program S = some e := by
  cases hr : frameLine R (line.render E S) with
  | some R' => rw [readLine_of_frameLine hr] at he; cases he
  | none =>
    rw [readLine_of_none hr] at he
    obtain ⟨text, rfl, ht, hd⟩ := (eventOfLine_eq_some hf).mp he
    obtain ⟨R', rfl⟩ := List.head?_eq_some_iff.mp ht
    obtain ⟨S', rfl, -, -⟩ := ha.top
    rw [LogLine.event, List.head?_cons, if_pos rfl, hd]

/-! ## Soundness -/

/-- The events the reader takes from the lines. -/
def seenEvents (E : Encodings) (program : Pubkey) : List Text → List Text → List ProtocolEvent
  | _, [] => []
  | R, log :: logs =>
    (readLine E program R log).2.toList ++ seenEvents E program (readLine E program R log).1 logs

/-- Every event the reader takes was logged by the program, in this order. -/
theorem seenEvents_sublist (program : Pubkey) {lines : List LogLine} (ha : Aligned E R S)
    (hb : Bracketed S lines) :
    (seenEvents E program R (rendered E S lines)).Sublist (loggedEvents E program S lines) := by
  induction lines generalizing R S with
  | nil => exact List.Sublist.refl _
  | cons line lines ih =>
    obtain ⟨hf, hb⟩ := hb
    have hrest := ih (ha.readLine program hf) hb
    rw [rendered, seenEvents, loggedEvents]
    apply List.Sublist.append _ hrest
    cases he : (readLine E program R (line.render E S)).2 with
    | none => exact List.nil_sublist _
    | some e => rw [event_of_readLine ha hf he]

section Numbering

variable {signature : String} {slot : UInt64} {commitment : Commitment}

/-- The index of the event at a position: the counter saturates. -/
def indexAt (i : ℕ) : UInt32 := UInt32.ofNat (min i 4294967295)

theorem saturatingSucc_indexAt (i : ℕ) : saturatingSucc (indexAt i) = indexAt (i + 1) := by
  by_cases h : i < 4294967295
  · have hi : min i 4294967295 = i := Nat.min_eq_left h.le
    have hs : min (i + 1) 4294967295 = i + 1 := Nat.min_eq_left h
    have hne : UInt32.ofNat i ≠ 4294967295 := by
      intro he
      have ht := congrArg UInt32.toNat he
      rw [UInt32.toNat_ofNat_of_lt' (by change i < 4294967296; omega)] at ht
      exact absurd ht h.ne
    rw [saturatingSucc, indexAt, indexAt, hi, hs, if_neg hne, UInt32.ofNat_add]
    rfl
  · have hi : min i 4294967295 = 4294967295 := by omega
    have hs : min (i + 1) 4294967295 = 4294967295 := by omega
    rw [indexAt, indexAt, hi, hs]
    rfl

/-- The rows of events that stand at consecutive positions. -/
def numbered (program : Pubkey) (signature : String) (slot : UInt64) (commitment : Commitment)
    (i : ℕ) (events : List ProtocolEvent) : List RawProtocolEvent :=
  (events.zipIdx i).map fun (e, j) => rawEvent program signature slot commitment e (indexAt j)

theorem out_foldl_extractLine (logs : List Text) (R : List Text) (out : List RawProtocolEvent)
    (i : ℕ) :
    (logs.foldl (extractLine E program signature slot commitment) ⟨R, out, indexAt i⟩).out =
      out ++ numbered program signature slot commitment i (seenEvents E program R logs) := by
  induction logs generalizing R out i with
  | nil => simp [seenEvents, numbered]
  | cons log logs ih =>
    rw [List.foldl_cons, extractLine, seenEvents, readLine]
    cases frameLine R log with
    | some R' => exact ih R' out i
    | none =>
      cases he : eventOfLine E program R log with
      | none => exact ih R out i
      | some e =>
        simp only [saturatingSucc_indexAt, ih, Option.toList_some, List.append_assoc]
        rfl

theorem extractProtocolEvents_eq (logs : List Text) :
    extractProtocolEvents E program signature slot commitment logs =
      numbered program signature slot commitment 0 (seenEvents E program [] logs) :=
  out_foldl_extractLine logs [] [] 0

end Numbering

section Sound

variable {signature : String} {slot : UInt64} {commitment : Commitment}

theorem extraction_sound {lines : List LogLine} (h : Bracketed [] lines) :
    ∃ events, events.Sublist (loggedEvents E program [] lines) ∧
      extractProtocolEvents E program signature slot commitment (rendered E [] lines) =
        numbered program signature slot commitment 0 events :=
  ⟨_, seenEvents_sublist program (.lost []) h, extractProtocolEvents_eq _⟩

end Sound

namespace Sample

def agentbond : Pubkey := List.Vector.replicate 32 7

def other : Pubkey := List.Vector.replicate 32 9

def created : ProtocolEvent :=
  { kind := .jobCreated, subject := zeroKey, actor := zeroKey, amount := 10, timestamp := 11 }

def createdText : Text := Base64.encode created.encode

theorem event_createdText : eventOfData .standard createdText = some created :=
  eventOfData_eq_some.mpr (by decide)

theorem not_mimics_created : ¬ (LogLine.data createdText).Mimics .standard :=
  not_frameText_of_event event_createdText

/-- The program calls another one, which logs a text, and then records an event. -/
def callLog (text : Text) : List LogLine :=
  [.invoke agentbond, .invoke other, .log text, .success, .data createdText, .success]

theorem bracketed_callLog (text : Text) : Bracketed [] (callLog text) := by
  simp [callLog, Bracketed, LogLine.Fits, LogLine.stack]

theorem loggedEvents_callLog (text : Text) :
    loggedEvents .standard agentbond [] (callLog text) = [created] := by
  simp [callLog, loggedEvents, LogLine.event, LogLine.stack, event_createdText]

theorem extraction_sound_sample :
    ∃ events, events.Sublist [created] ∧
      extractProtocolEvents .standard agentbond "sig" 1 .processed
          (rendered .standard [] (callLog "success".toList)) =
        numbered agentbond "sig" 1 .processed 0 events := by
  rw [← loggedEvents_callLog "success".toList]
  exact extraction_sound (bracketed_callLog _)

end Sample

end AgentBond.Indexer
