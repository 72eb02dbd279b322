import AgentBond.Indexer.Extraction

/-! # Completeness of event extraction

The rebuilt stack is the stack of the runtime until a text reads like a frame
line. From then on it is empty or has a phantom on top, and events are lost until
the top-level instruction ends.
-/

namespace AgentBond.Indexer

open Foundation

variable {E : Encodings} {program : Pubkey} {R R' : List Text} {S : List Pubkey} {line : LogLine}

/-- The rebuilt stack after `n` mimicking texts in a top-level instruction. -/
def Tracked (E : Encodings) : ℕ → List Text → List Pubkey → Prop
  | 0, R, S => R = S.map E.keyText
  | 1, R, S => S ≠ [] ∧ (R = [] ∨ ∃ id, Phantom id ∧ R = id :: S.map E.keyText)
  | _ + 2, _, S => S ≠ []

namespace Tracked

variable {n : ℕ}

theorem nil : Tracked E 0 [] [] := rfl

theorem ne_nil (h : Tracked E (n + 1) R S) : S ≠ [] := by
  cases n with
  | zero => exact h.1
  | succ n => exact h

theorem head_ne {p : Pubkey} (h : Tracked E 1 R S) : R.head? ≠ some (E.keyText p) := by
  obtain ⟨-, rfl | ⟨id, hid, rfl⟩⟩ := h
  · simp
  · intro he
    exact not_phantom_keyText p (Option.some.inj he ▸ hid)

theorem head_eq {p : Pubkey} (h : Tracked E 0 R S) (hs : S.head? = some p) :
    R.head? = some (E.keyText p) := by
  rw [show R = S.map E.keyText from h, List.head?_map, hs]
  rfl

end Tracked

theorem LogLine.ne_nil_of_mimics (hm : line.Mimics E) (hf : line.Fits S) : S ≠ [] := by
  cases line <;> first | exact hf | cases hm

theorem Tracked.invoke {n : ℕ} {p : Pubkey} (ht : Tracked E n R S)
    (hd : S.length < maxStackDepth) :
    Tracked E n (readLine E program R ((LogLine.invoke p).render E S)).1 (p :: S) := by
  have hlt : S.length + 1 < 2 ^ 64 := Nat.lt_of_le_of_lt hd (by decide)
  rw [readLine_invoke]
  match n with
  | 0 =>
    obtain rfl : R = S.map E.keyText := ht
    rw [if_pos ⟨fun _ => List.length_map _, by rwa [List.length_map]⟩]
    rfl
  | 1 =>
    have hl : R.length ≠ S.length := by
      obtain ⟨hs, rfl | ⟨id, -, rfl⟩⟩ := ht
      · exact fun h => hs (List.length_eq_zero_iff.mp h.symm)
      · simp
    rw [if_neg fun h => hl (h.1 hlt)]
    exact ⟨List.cons_ne_nil _ _, .inl rfl⟩
  | n + 2 => exact List.cons_ne_nil _ _

theorem Tracked.finish {n : ℕ} {p : Pubkey} (ht : Tracked E n R (p :: S))
    (ha : Aligned E R (p :: S)) (hl : line = .success ∨ ∃ reason, line = .failed reason) :
    Tracked E (if S = [] then 0 else n) (readLine E program R (line.render E (p :: S))).1 S := by
  rw [readLine_end p hl]
  split
  · rename_i hs
    subst hs
    split
    · rename_i hh
      obtain ⟨R', rfl⟩ := List.head?_eq_some_iff.mp hh
      obtain ⟨_, hs, -, hlen⟩ := ha.top
      cases hs
      exact List.length_eq_zero_iff.mp (hlen (by decide))
    · rfl
  · rename_i hs
    match n with
    | 0 =>
      obtain rfl : R = (p :: S).map E.keyText := ht
      simp [Tracked]
    | 1 =>
      rw [if_neg ht.head_ne]
      exact ⟨hs, .inl rfl⟩
    | n + 2 => exact hs

theorem Tracked.mimic {n : ℕ} (ht : Tracked E n R S) (hs : S ≠ [])
    (hR : R' = [] ∨ ∃ id, Phantom id ∧ (R' = id :: R ∨ R = id :: R')) :
    Tracked E (n + 1) R' S := by
  match n with
  | 0 =>
    obtain rfl : R = S.map E.keyText := ht
    refine ⟨hs, ?_⟩
    rcases hR with rfl | ⟨id, hid, rfl | hpop⟩
    · exact .inl rfl
    · exact .inr ⟨id, hid, rfl⟩
    · obtain ⟨p, S', rfl⟩ := List.exists_cons_of_ne_nil hs
      cases hpop
      exact absurd hid (not_phantom_keyText p)
  | n + 1 => exact hs

theorem Tracked.read {n : ℕ} (program : Pubkey) (ht : Tracked E n R S) (ha : Aligned E R S)
    (hf : line.Fits S)
    (hd : (line.stack S).length ≤ maxStackDepth) :
    Tracked E (line.noise E S n) (readLine E program R (line.render E S)).1 (line.stack S) := by
  by_cases hl : line.IsFrame
  · cases line with
    | invoke p =>
      have hn : (LogLine.invoke p).noise E S n = n := by
        simp [LogLine.noise, LogLine.stack, LogLine.Mimics]
      rw [hn]
      exact ht.invoke hd
    | success =>
      obtain ⟨p, S', rfl⟩ := List.exists_cons_of_ne_nil hf
      exact ht.finish ha (.inl rfl)
    | failed reason =>
      obtain ⟨p, S', rfl⟩ := List.exists_cons_of_ne_nil hf
      exact ht.finish ha (.inr ⟨reason, rfl⟩)
    | _ => cases hl
  · rw [LogLine.noise, LogLine.stack_of_not_isFrame hl]
    rcases frameLine_cases hl hf with ⟨hm, hn⟩ | ⟨hm, R', hr, hR⟩
    · rw [readLine_of_none hn, if_neg hm]
      split
      · rename_i hs
        cases n with
        | zero => exact ht
        | succ n => exact absurd hs ht.ne_nil
      · exact ht
    · have hs := LogLine.ne_nil_of_mimics hm hf
      rw [readLine_of_frameLine hr, if_neg hs, if_pos hm]
      exact ht.mimic hs hR

theorem frameLine_of_event {e : ProtocolEvent} (hf : line.Fits S)
    (he : line.event E program S = some e) : frameLine R (line.render E S) = none := by
  cases line with
  | data text =>
    have hd := (Option.ite_none_right_eq_some.mp he).2
    rcases frameLine_cases (S := S) (R := R) id hf with ⟨-, hn⟩ | ⟨hm, -⟩
    · exact hn
    · exact absurd hm (not_frameText_of_event hd)
  | _ => cases he

theorem Tracked.event_eq (ht : Tracked E 0 R S) (ha : Aligned E R S) (hf : line.Fits S) :
    (readLine E program R (line.render E S)).2 = line.event E program S := by
  cases he : line.event E program S with
  | none =>
    rw [Option.eq_none_iff_forall_ne_some]
    intro e hr
    rw [event_of_readLine ha hf hr] at he
    cases he
  | some e =>
    rw [readLine_of_none (frameLine_of_event hf he)]
    cases line with
    | data text =>
      obtain ⟨hs, hd⟩ := Option.ite_none_right_eq_some.mp he
      exact (eventOfLine_eq_some hf).mpr ⟨text, rfl, ht.head_eq hs, hd⟩
    | _ => cases he

theorem Tracked.event_eq_none (ht : Tracked E 1 R S) (hf : line.Fits S) :
    (readLine E program R (line.render E S)).2 = none := by
  rw [Option.eq_none_iff_forall_ne_some]
  intro e he
  cases hr : frameLine R (line.render E S) with
  | some R' => rw [readLine_of_frameLine hr] at he; cases he
  | none =>
    rw [readLine_of_none hr] at he
    obtain ⟨_, -, hh, -⟩ := (eventOfLine_eq_some hf).mp he
    exact ht.head_ne hh

section Run

variable {lines : List LogLine} {n : ℕ}

/-- Where no text mimics a frame line before an event, the reader takes every event. -/
theorem seenEvents_eq (ht : Tracked E n R S) (ha : Aligned E R S) (hb : Bracketed S lines)
    (hd : Shallow S lines) (hn : ∀ m ∈ noiseBefore E program S n lines, m = 0) :
    seenEvents E program R (rendered E S lines) = loggedEvents E program S lines := by
  induction lines generalizing R S n with
  | nil => rfl
  | cons line lines ih =>
    obtain ⟨hf, hb⟩ := hb
    obtain ⟨hd, hds⟩ := hd
    rw [noiseBefore, List.forall_mem_append] at hn
    have hrest := ih (ht.read program ha hf hd) (ha.readLine program hf) hb hds hn.2
    have hhead : (readLine E program R (line.render E S)).2 = line.event E program S := by
      cases he : line.event E program S with
      | none =>
        rw [Option.eq_none_iff_forall_ne_some]
        intro e hr
        rw [event_of_readLine ha hf hr] at he
        cases he
      | some e =>
        obtain rfl : n = 0 := hn.1 n (by simp [he])
        rw [ht.event_eq ha hf, he]
    rw [rendered, seenEvents, loggedEvents, hhead, hrest]

/-- An event after a single mimicking text is lost. -/
theorem length_seenEvents_lt (ht : Tracked E n R S) (ha : Aligned E R S) (hb : Bracketed S lines)
    (hd : Shallow S lines) (hn : 1 ∈ noiseBefore E program S n lines) :
    (seenEvents E program R (rendered E S lines)).length <
      (loggedEvents E program S lines).length := by
  induction lines generalizing R S n with
  | nil => cases hn
  | cons line lines ih =>
    obtain ⟨hf, hb⟩ := hb
    obtain ⟨hd, hds⟩ := hd
    have ha' := ha.readLine program hf
    rw [noiseBefore, List.mem_append] at hn
    rw [rendered, seenEvents, loggedEvents, List.length_append, List.length_append]
    rcases hn with hn | hn
    · obtain ⟨e, he, rfl⟩ := List.mem_map.mp hn
      have hle := (seenEvents_sublist program ha' hb).length_le
      rw [ht.event_eq_none hf, Option.mem_toList.mp he]
      simp only [Option.toList_none, Option.toList_some, List.length_nil, List.length_singleton]
      omega
    · have hlt := ih (ht.read program ha hf hd) ha' hb hds hn
      have hle : (readLine E program R (line.render E S)).2.toList.length ≤
          (line.event E program S).toList.length := by
        cases hr : (readLine E program R (line.render E S)).2 with
        | none => simp
        | some e => rw [event_of_readLine ha hf hr]
      omega

theorem noiseBefore_eq_zero (h : ∀ line ∈ lines, ¬ line.Mimics E) :
    ∀ m ∈ noiseBefore E program S 0 lines, m = 0 := by
  induction lines generalizing S with
  | nil => simp [noiseBefore]
  | cons line lines ih =>
    rw [List.forall_mem_cons] at h
    have hn : line.noise E S 0 = 0 := by simp [LogLine.noise, h.1]
    rw [noiseBefore, hn, List.forall_mem_append]
    constructor
    · intro m hm
      obtain ⟨_, _, rfl⟩ := List.mem_map.mp hm
      rfl
    · exact ih h.2

end Run

section Complete

variable {signature : String} {slot : UInt64} {commitment : Commitment} {lines : List LogLine}

theorem length_numbered (i : ℕ) (events : List ProtocolEvent) :
    (numbered program signature slot commitment i events).length = events.length := by
  rw [numbered, List.length_map, List.length_zipIdx]

theorem extraction_complete (hb : Bracketed [] lines) (hd : Shallow [] lines) :
    ((∀ n ∈ noiseBefore E program [] 0 lines, n = 0) →
        extractProtocolEvents E program signature slot commitment (rendered E [] lines) =
          numbered program signature slot commitment 0 (loggedEvents E program [] lines)) ∧
      (1 ∈ noiseBefore E program [] 0 lines →
        extractProtocolEvents E program signature slot commitment (rendered E [] lines) ≠
          numbered program signature slot commitment 0 (loggedEvents E program [] lines)) := by
  rw [extractProtocolEvents_eq]
  constructor
  · intro hn
    rw [seenEvents_eq .nil (.lost []) hb hd hn]
  · intro hn he
    have hlt := length_seenEvents_lt .nil (.lost []) hb hd hn
    have hlen := congrArg List.length he
    rw [length_numbered, length_numbered] at hlen
    exact hlt.ne hlen

end Complete

namespace Sample

theorem shallow_callLog (text : Text) : Shallow [] (callLog text) := by
  simp [callLog, Shallow, LogLine.stack, maxStackDepth]

theorem noiseBefore_callLog (text : Text) :
    noiseBefore .standard agentbond [] 0 (callLog text) = [if FrameText text then 1 else 0] := by
  simp [callLog, noiseBefore, LogLine.event, LogLine.noise, LogLine.stack, LogLine.Mimics,
    event_createdText]

theorem extraction_complete_sample :
    extractProtocolEvents .standard agentbond "sig" 1 .processed
        (rendered .standard [] (callLog "Instruction: Transfer".toList)) =
      numbered agentbond "sig" 1 .processed 0 [created] := by
  have h := (@extraction_complete .standard agentbond "sig" 1 .processed _
    (bracketed_callLog "Instruction: Transfer".toList) (shallow_callLog _)).1
  rw [noiseBefore_callLog, loggedEvents_callLog] at h
  exact h (by decide)

/-- A callee that logs the text `success` suppresses the event of its caller. -/
theorem extraction_loses_event :
    Bracketed [] (callLog "success".toList) ∧ Shallow [] (callLog "success".toList) ∧
      loggedEvents .standard agentbond [] (callLog "success".toList) = [created] ∧
      extractProtocolEvents .standard agentbond "sig" 1 .processed
        (rendered .standard [] (callLog "success".toList)) = [] := by
  have hone : 1 ∈ noiseBefore .standard agentbond [] 0 (callLog "success".toList) := by
    rw [noiseBefore_callLog]
    decide
  have hlt := length_seenEvents_lt .nil (.lost []) (bracketed_callLog "success".toList)
    (shallow_callLog _) hone
  rw [loggedEvents_callLog] at hlt
  refine ⟨bracketed_callLog _, shallow_callLog _, loggedEvents_callLog _, ?_⟩
  rw [extractProtocolEvents_eq, List.length_eq_zero_iff.mp (Nat.lt_one_iff.mp hlt)]
  rfl

/-- The program records the same event again and again. -/
def floodLog (n : ℕ) : List LogLine :=
  .invoke agentbond :: (List.replicate n (.data createdText) ++ [.success])

theorem bracketed_floodLog (n : ℕ) : Bracketed [] (floodLog n) := by
  have h : Bracketed [agentbond] (List.replicate n (.data createdText) ++ [.success]) := by
    induction n with
    | zero => simp [Bracketed, LogLine.Fits, LogLine.stack]
    | succ n ih => exact ⟨by simp [LogLine.Fits], ih⟩
  exact ⟨trivial, h⟩

theorem shallow_floodLog (n : ℕ) : Shallow [] (floodLog n) := by
  have h : Shallow [agentbond] (List.replicate n (.data createdText) ++ [.success]) := by
    induction n with
    | zero => simp [Shallow, LogLine.stack]
    | succ n ih => exact ⟨by simp [LogLine.stack, maxStackDepth], ih⟩
  exact ⟨by simp [LogLine.stack, maxStackDepth], h⟩

theorem loggedEvents_floodLog (n : ℕ) :
    loggedEvents .standard agentbond [] (floodLog n) = List.replicate n created := by
  have hd : (LogLine.data createdText).event .standard agentbond [agentbond] = some created := by
    simp [LogLine.event, event_createdText]
  have h : loggedEvents .standard agentbond [agentbond]
      (List.replicate n (.data createdText) ++ [.success]) = List.replicate n created := by
    induction n with
    | zero => rfl
    | succ n ih =>
      rw [List.replicate_succ, List.cons_append, loggedEvents, hd,
        LogLine.stack_of_not_isFrame id, ih]
      rfl
  exact h

theorem extract_floodLog (n : ℕ) :
    extractProtocolEvents .standard agentbond "sig" 1 .processed
        (rendered .standard [] (floodLog n)) =
      numbered agentbond "sig" 1 .processed 0 (List.replicate n created) := by
  have hn : ∀ line ∈ floodLog n, ¬ line.Mimics .standard := by
    simp only [floodLog, List.mem_cons, List.mem_append, List.mem_replicate, List.not_mem_nil,
      or_false]
    rintro line (rfl | ⟨-, rfl⟩ | rfl)
    · exact id
    · exact not_mimics_created
    · exact id
  rw [extractProtocolEvents_eq, ← loggedEvents_floodLog,
    seenEvents_eq .nil (.lost []) (bracketed_floodLog n) (shallow_floodLog n)
      (noiseBefore_eq_zero hn)]

theorem index_floodLog {n i : ℕ} (h : i < n) :
    ((extractProtocolEvents .standard agentbond "sig" 1 .processed
      (rendered .standard [] (floodLog n)))[i]?).map RawProtocolEvent.eventIndex =
        some (indexAt i) := by
  rw [extract_floodLog, numbered, List.getElem?_map, List.getElem?_zipIdx, List.getElem?_replicate,
    if_pos h, Nat.zero_add]
  rfl

/-- More events than a word counts: the last two rows share an index. -/
theorem indices_saturate :
    Bracketed [] (floodLog 4294967297) ∧
      ((extractProtocolEvents .standard agentbond "sig" 1 .processed
        (rendered .standard [] (floodLog 4294967297)))[4294967295]?).map
          RawProtocolEvent.eventIndex = some 4294967295 ∧
      ((extractProtocolEvents .standard agentbond "sig" 1 .processed
        (rendered .standard [] (floodLog 4294967297)))[4294967296]?).map
          RawProtocolEvent.eventIndex = some 4294967295 :=
  ⟨bracketed_floodLog _, index_floodLog (by decide), index_floodLog (by decide)⟩

end Sample

end AgentBond.Indexer
