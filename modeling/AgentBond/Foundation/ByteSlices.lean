import AgentBond.Foundation.Panics
import AgentBond.Foundation.Text

/-! # Slices of text, and loops that may panic

A text is sliced by the positions of its bytes in UTF-8, and slicing in the
middle of a character panics. A loop stops at the first iteration that panics or
fails.
-/

namespace Foundation

namespace Text

/-- The parts before and after a position, if a character starts or the text ends there. -/
def splitAtByte : ℕ → Text → Option (Text × Text)
  | 0, text => some ([], text)
  | _ + 1, [] => none
  | n + 1, c :: text =>
    if c.utf8Size ≤ n + 1 then
      (splitAtByte (n + 1 - c.utf8Size) text).map fun (before, after) => (c :: before, after)
    else none

/-- `&text[start..stop]`. -/
def byteSlice (text : Text) (start stop : ℕ) : Option Text :=
  if start ≤ stop then do
    let (before, _) ← splitAtByte stop text
    let (_, middle) ← splitAtByte start before
    some middle
  else none

@[simp] theorem splitAtByte_zero (text : Text) : splitAtByte 0 text = some ([], text) := by
  unfold splitAtByte
  rfl

theorem splitAtByte_add (c : Char) (text : Text) (n : ℕ) :
    splitAtByte (n + c.utf8Size) (c :: text) =
      (splitAtByte n text).map fun (before, after) => (c :: before, after) := by
  have hc := c.utf8Size_pos
  obtain ⟨m, hm⟩ : ∃ m, n + c.utf8Size = m + 1 := ⟨n + c.utf8Size - 1, by omega⟩
  rw [hm, splitAtByte, if_pos (by omega), show m + 1 - c.utf8Size = n by omega]

theorem splitAtByte_of_lt {c : Char} {text : Text} {n : ℕ} (hn : 0 < n) (h : n < c.utf8Size) :
    splitAtByte n (c :: text) = none := by
  obtain ⟨m, rfl⟩ : ∃ m, n = m + 1 := ⟨n - 1, by omega⟩
  rw [splitAtByte, if_neg (by omega)]

theorem byteSlice_add (c : Char) (text : Text) (start stop : ℕ) :
    byteSlice (c :: text) (start + c.utf8Size) (stop + c.utf8Size) = byteSlice text start stop := by
  unfold byteSlice
  by_cases h : start ≤ stop
  · rw [if_pos h, if_pos (by omega), splitAtByte_add]
    cases splitAtByte stop text with
    | none => rfl
    | some parts =>
      obtain ⟨before, after⟩ := parts
      show (splitAtByte (start + c.utf8Size) (c :: before)).bind _ =
        (splitAtByte start before).bind _
      rw [splitAtByte_add]
      cases splitAtByte start before with
      | none => rfl
      | some parts => rfl
  · rw [if_neg h, if_neg (by omega)]

theorem byteSlice_zero (text : Text) (stop : ℕ) :
    byteSlice text 0 stop = (splitAtByte stop text).map Prod.fst := by
  rw [byteSlice, if_pos stop.zero_le]
  cases splitAtByte stop text with
  | none => rfl
  | some parts =>
    show (splitAtByte 0 parts.1).bind _ = _
    rw [splitAtByte_zero]
    rfl

end Text

namespace Panicking

variable {ε α β : Type}

/-- `&text[start..stop]` -/
def str (text : Text) (start stop : ℕ) : Panicking ε Text :=
  ExceptT.mk ((text.byteSlice start stop).map .ok)

/-- `xs[i] = a`. -/
def assign (xs : List α) (i : ℕ) (a : α) : Panicking ε (List α) :=
  ExceptT.mk (if i < xs.length then some (.ok (xs.set i a)) else none)

def Panics (x : Panicking ε α) : Prop := x.run = none

theorem returns_pure (a : α) : Returns (pure a : Panicking ε α) (.ok a) := rfl

theorem returns_throw (e : ε) : Returns (throw e : Panicking ε α) (.error e) := rfl

theorem Returns.unique {x : Panicking ε α} {r r' : Except ε α} (h : Returns x r)
    (h' : Returns x r') : r = r' :=
  Option.some_inj.mp (h.symm.trans h')

theorem Panics.not_returns {x : Panicking ε α} (h : Panics x) {r : Except ε α} : ¬ Returns x r :=
  fun hr => nomatch h.symm.trans hr

theorem Returns.bind_error {x : Panicking ε α} {f : α → Panicking ε β} {e : ε}
    (hx : Returns x (.error e)) : Returns (x >>= f) (.error e) :=
  hx.bind (g := fun _ => .error e) fun _ h => nomatch h

theorem Panics.bind {x : Panicking ε α} {f : α → Panicking ε β} (hx : Panics x) :
    Panics (x >>= f) := by
  have hrun : (x >>= f).run = x.run >>= fun r => ExceptT.bindCont f r := rfl
  rw [Panics, hrun, show x.run = none from hx]
  rfl

theorem Returns.bind_panics {x : Panicking ε α} {f : α → Panicking ε β} {a : α}
    (hx : Returns x (.ok a)) (hf : Panics (f a)) : Panics (x >>= f) := by
  have hrun : (x >>= f).run = x.run >>= fun r => ExceptT.bindCont f r := rfl
  rw [Panics, hrun, show x.run = some (.ok a) from hx]
  exact hf

theorem cases (x : Panicking ε α) :
    (∃ a, Returns x (.ok a)) ∨ (∃ e, Returns x (.error e)) ∨ Panics x := by
  cases h : x.run with
  | none => exact .inr (.inr h)
  | some r =>
    cases r with
    | error e => exact .inr (.inl ⟨e, h⟩)
    | ok a => exact .inl ⟨a, h⟩

theorem returns_bind_ok {x : Panicking ε α} {f : α → Panicking ε β} {b : β} :
    Returns (x >>= f) (.ok b) ↔ ∃ a, Returns x (.ok a) ∧ Returns (f a) (.ok b) := by
  constructor
  · intro h
    rcases x.cases with ⟨a, ha⟩ | ⟨e, he⟩ | hp
    · rcases (f a).cases with ⟨b', hb⟩ | ⟨e, he⟩ | hp
      · cases (ha.bind_ok hb).unique h
        exact ⟨a, ha, hb⟩
      · exact nomatch (ha.bind_ok he).unique h
      · exact absurd h (ha.bind_panics hp).not_returns
    · exact nomatch he.bind_error.unique h
    · exact absurd h hp.bind.not_returns
  · rintro ⟨a, ha, hb⟩
    exact ha.bind_ok hb

section Loops

variable {f : α → Panicking ε β}

theorem exists_forall₂_iff {R : α → β → Prop} {xs : List α} :
    (∃ ys, List.Forall₂ R xs ys) ↔ ∀ x ∈ xs, ∃ y, R x y := by
  induction xs with
  | nil => exact iff_of_true ⟨[], .nil⟩ nofun
  | cons x xs ih =>
    rw [List.forall_mem_cons, ← ih]
    constructor
    · rintro ⟨_, hy | ⟨hy, hys⟩⟩
      exact ⟨⟨_, hy⟩, ⟨_, hys⟩⟩
    · rintro ⟨⟨y, hy⟩, ⟨ys, hys⟩⟩
      exact ⟨y :: ys, .cons hy hys⟩

theorem returns_mapM_ok {xs : List α} {ys : List β} :
    Returns (xs.mapM f) (.ok ys) ↔ List.Forall₂ (fun x y => Returns (f x) (.ok y)) xs ys := by
  induction xs generalizing ys with
  | nil =>
    rw [List.mapM_nil, List.forall₂_nil_left_iff]
    constructor
    · intro h
      exact (Except.ok.inj ((returns_pure []).unique h)).symm
    · rintro rfl
      exact returns_pure []
  | cons x xs ih =>
    rw [List.mapM_cons, returns_bind_ok]
    constructor
    · rintro ⟨y, hy, h⟩
      obtain ⟨ys', hys, h⟩ := returns_bind_ok.mp h
      cases (returns_pure (y :: ys')).unique h
      exact .cons hy (ih.mp hys)
    · rintro (_ | ⟨hy, hys⟩)
      exact ⟨_, hy, (ih.mpr hys).bind_ok (returns_pure _)⟩

theorem mapM_stops {xs before after : List α} {x : α} (hxs : xs = before ++ x :: after)
    (hbefore : ∀ x ∈ before, ∃ y, Returns (f x) (.ok y)) :
    (∀ e, Returns (f x) (.error e) → Returns (xs.mapM f) (.error e)) ∧
      (Panics (f x) → Panics (xs.mapM f)) := by
  subst hxs
  induction before with
  | nil =>
    rw [List.nil_append, List.mapM_cons]
    exact ⟨fun e he => he.bind_error, fun hp => hp.bind⟩
  | cons z before ih =>
    obtain ⟨y, hy⟩ := hbefore z List.mem_cons_self
    have ih := ih fun x hx => hbefore x (List.mem_cons_of_mem _ hx)
    rw [List.cons_append, List.mapM_cons]
    exact ⟨fun e he => hy.bind_ok (ih.1 e he).bind_error, fun hp => hy.bind_panics (ih.2 hp).bind⟩

theorem exists_stop (f : α → Panicking ε β) (xs : List α) :
    (∃ ys, List.Forall₂ (fun x y => Returns (f x) (.ok y)) xs ys) ∨
      ∃ before x after, xs = before ++ x :: after ∧
        (∀ x ∈ before, ∃ y, Returns (f x) (.ok y)) ∧
        ((∃ e, Returns (f x) (.error e)) ∨ Panics (f x)) := by
  induction xs with
  | nil => exact .inl ⟨[], .nil⟩
  | cons x xs ih =>
    rcases (f x).cases with ⟨y, hy⟩ | hx
    · rcases ih with ⟨ys, hys⟩ | ⟨before, z, after, rfl, hbefore, hz⟩
      · exact .inl ⟨y :: ys, .cons hy hys⟩
      · refine .inr ⟨x :: before, z, after, rfl, ?_, hz⟩
        intro w hw
        cases hw with
        | head => exact ⟨y, hy⟩
        | tail _ hw => exact hbefore w hw
    · exact .inr ⟨[], x, xs, rfl, nofun, hx⟩

/-- A loop that assigns the elements of a buffer one after the other. -/
theorem foldlM_assign (g : ℕ → Panicking ε β) (b : β) (m : ℕ) (ys : List β) :
    (List.range' ys.length m).foldlM
        (fun out i => do
          let y ← g i
          assign out i y)
        (ys ++ List.replicate m b) =
      (do
        let zs ← (List.range' ys.length m).mapM g
        pure (ys ++ zs) : Panicking ε (List β)) := by
  induction m generalizing ys with
  | zero => simp
  | succ m ih =>
    have hset (y : β) : assign (ys ++ List.replicate (m + 1) b) ys.length y =
        (pure ((ys ++ [y]) ++ List.replicate m b) : Panicking ε (List β)) := by
      rw [assign, if_pos (by simp), List.set_append_right _ _ le_rfl, Nat.sub_self,
        List.replicate_succ, List.set_cons_zero, List.append_assoc]
      rfl
    have ih (y : β) := ih (ys ++ [y])
    simp only [List.length_append, List.length_singleton, List.append_assoc,
      List.singleton_append] at ih
    simp only [List.range'_succ, List.foldlM_cons, List.mapM_cons, bind_assoc, hset, pure_bind, ih,
      List.append_assoc, List.singleton_append]

end Loops

end Panicking

end Foundation
