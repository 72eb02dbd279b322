import AgentBond.Foundation.Descent
import AgentBond.Indexer.Ancestry

/-! # The walk along the parents

The walk that a finalization requires goes through exactly on the live chains it
can look at as a whole: a slot without a dead or missing ancestor and without a
cycle, whose chain has at most as many slots as the walk has steps.
-/

namespace AgentBond.Indexer

open Foundation

/-- The slots as their table holds them: the key is a non-negative `BIGINT`. -/
structure StoredSlots where
  rows : Table UInt64 SlotRow
  bigint : ∀ k row, rows.get k = some row → k.toNat < 2 ^ 63

section Chains

variable (slots : Table UInt64 SlotRow) (slot : UInt64)

def parentOf (a : UInt64) : Option UInt64 := (slots.get a).bind (·.parentSlot)

def StoredAt (a : UInt64) : Prop := ∃ row, slots.get a = some row

def DeadAt (a : UInt64) : Prop := ∃ row, slots.get a = some row ∧ row.status = .dead

/-- The slot and all its recorded ancestors. -/
def lineage : Set UInt64 := {a | Relation.ReflTransGen (Parent slots) slot a}

/-- The parent chain of the slot ends, and everything on it is stored and alive. -/
structure LiveChain : Prop where
  acyclic : ∀ a ∈ lineage slots slot, ¬ Ancestor slots a a
  stored : ∀ a ∈ lineage slots slot, StoredAt slots a
  alive : ∀ a, Ancestor slots slot a → ¬ DeadAt slots a
  rooted : ∃ a ∈ lineage slots slot, ∃ row, slots.get a = some row ∧ row.parentSlot = none

/-- The same chain, listed from the slot to its end. -/
structure LivePath (path : List UInt64) : Prop where
  descent : Descent (parentOf slots) slot path
  stored : ∀ a ∈ path, StoredAt slots a
  alive : ∀ a ∈ path.tail, ¬ DeadAt slots a

end Chains

section Paths

variable {slots : Table UInt64 SlotRow} {slot a b : UInt64} {row : SlotRow} {path : List UInt64}

theorem follows_parentOf : Follows (parentOf slots) = Parent slots := by
  funext a b
  exact propext Option.bind_eq_some_iff

theorem LivePath.mem_iff (h : LivePath slots slot path) : a ∈ path ↔ a ∈ lineage slots slot := by
  rw [h.descent.mem_iff, LeadsTo, follows_parentOf]
  rfl

theorem LivePath.mem_tail_iff (h : LivePath slots slot path) :
    a ∈ path.tail ↔ Ancestor slots slot a := by
  rw [h.descent.mem_tail_iff, follows_parentOf]

theorem LivePath.encard_eq (h : LivePath slots slot path) :
    (lineage slots slot).encard = path.length := by
  rw [← h.descent.encard_eq, lineage, LeadsTo, follows_parentOf]

theorem LivePath.unique {path' : List UInt64} (h : LivePath slots slot path)
    (h' : LivePath slots slot path') : path = path' :=
  h.descent.unique h'.descent

/-- A chain is live exactly when it can be listed to its end. -/
theorem exists_livePath_iff : (∃ path, LivePath slots slot path) ↔ LiveChain slots slot := by
  constructor
  · rintro ⟨path, h⟩
    constructor
    · intro a ha
      rw [Ancestor, ← follows_parentOf]
      exact h.descent.irrefl (h.descent.mem_iff.mp (h.mem_iff.mpr ha))
    · exact fun a ha => h.stored a (h.mem_iff.mpr ha)
    · exact fun a ha => h.alive a (h.mem_tail_iff.mpr ha)
    · obtain ⟨a, ha, hend⟩ := exists_descent_iff.mp ⟨path, h.descent⟩
      obtain ⟨row, hrow⟩ := h.stored a (h.descent.mem_iff.mpr ha)
      rw [parentOf, hrow] at hend
      exact ⟨a, h.mem_iff.mp (h.descent.mem_iff.mpr ha), row, hrow, hend⟩
  · rintro ⟨-, hstored, halive, a, ha, row, hrow, hend⟩
    obtain ⟨path, hpath⟩ : ∃ path, Descent (parentOf slots) slot path := by
      refine exists_descent_iff.mpr ⟨a, ?_, ?_⟩
      · rw [LeadsTo, follows_parentOf]
        exact ha
      · rw [parentOf, hrow]
        exact hend
    refine ⟨path, hpath, fun b hb => hstored b ?_, fun b hb => halive b ?_⟩
    · rw [hpath.mem_iff, LeadsTo, follows_parentOf] at hb
      exact hb
    · rw [hpath.mem_tail_iff, follows_parentOf] at hb
      exact hb

theorem livePath_root (hrow : slots.get a = some row) (hparent : row.parentSlot = none) :
    LivePath slots a path ↔ path = [a] := by
  have hend : parentOf slots a = none := by rw [parentOf, hrow]; exact hparent
  constructor
  · intro h
    exact h.descent.unique (.last hend)
  · rintro rfl
    refine ⟨.last hend, fun b hb => ?_, fun b hb => by cases hb⟩
    obtain rfl := List.mem_singleton.mp hb
    exact ⟨row, hrow⟩

theorem livePath_child (hrow : slots.get a = some row) (hparent : row.parentSlot = some b) :
    LivePath slots a path ↔
      ∃ rest, path = a :: rest ∧ LivePath slots b rest ∧ ¬ DeadAt slots b := by
  have hnext : parentOf slots a = some b := by rw [parentOf, hrow]; exact hparent
  constructor
  · rintro ⟨hdescent, hstored, halive⟩
    cases hdescent with
    | last hend => cases hend.symm.trans hnext
    | @step _ c rest hc hdescent =>
      obtain rfl := Option.some.inj (hc.symm.trans hnext)
      rw [List.tail_cons] at halive
      exact ⟨rest, rfl, ⟨hdescent, fun d hd => hstored d (List.mem_cons_of_mem a hd),
        fun d hd => halive d (List.mem_of_mem_tail hd)⟩, halive c hdescent.mem_start⟩
  · rintro ⟨rest, rfl, ⟨hdescent, hstored, halive⟩, hb⟩
    refine ⟨.step hnext hdescent, fun d hd => ?_, fun d hd => ?_⟩
    · rcases List.mem_cons.mp hd with rfl | hd
      · exact ⟨row, hrow⟩
      · exact hstored d hd
    · -- The parent itself is alive, and so is what lies behind it.
      rw [List.tail_cons] at hd
      cases hdescent <;> rcases List.mem_cons.mp hd with rfl | hd
      · exact hb
      · cases hd
      · exact hb
      · exact halive d hd

end Paths

section Walks

variable {S : StoredSlots} {slot a : UInt64} {path visited : List UInt64} {n : ℕ}

/-- The walk goes through on a live chain that fits its steps and avoids what it has visited. -/
theorem ancestryWalk_eq_ok : ancestryWalk S.rows slot n a visited = .ok () ↔
    ∃ path, LivePath S.rows a path ∧ path.length ≤ n ∧ ∀ b ∈ path, b ∉ visited := by
  induction n generalizing a visited with
  | zero =>
    refine iff_of_false (fun h => by cases h) ?_
    rintro ⟨path, hpath, hlen, -⟩
    rw [List.eq_nil_of_length_eq_zero (Nat.le_zero.mp hlen)] at hpath
    cases hpath.descent
  | succ n ih =>
    simp only [ancestryWalk, bind_eq_ok, ensure_eq_ok, exists_const, u64ToI64_eq_ok]
    cases hrow : S.rows.get a with
    | none =>
      refine iff_of_false ?_ ?_
      · rintro ⟨-, _, ⟨-, rfl⟩, h⟩
        simp only [hrow] at h
        split at h <;> cases h
      · rintro ⟨path, hpath, -⟩
        obtain ⟨row, hstored⟩ := hpath.stored a hpath.descent.mem_start
        cases hrow.symm.trans hstored
    | some row =>
      have hfits := S.bigint a row hrow
      cases hparent : row.parentSlot with
      | none =>
        constructor
        · rintro ⟨hfresh, -⟩
          refine ⟨[a], (livePath_root hrow hparent).mpr rfl, Nat.succ_le_succ (Nat.zero_le n), ?_⟩
          intro b hb
          obtain rfl := List.mem_singleton.mp hb
          exact hfresh
        · rintro ⟨path, hpath, -, hfresh⟩
          refine ⟨hfresh a hpath.descent.mem_start, a, ⟨hfits, rfl⟩, ?_⟩
          simp only [hrow, hparent]
      | some b =>
        constructor
        · rintro ⟨hfresh, _, ⟨-, rfl⟩, h⟩
          simp only [hrow, hparent, bind_eq_ok, ensure_eq_ok, exists_const, okOr_eq_ok] at h
          obtain ⟨-, parentRow, hb, halive, hwalk⟩ := h
          obtain ⟨rest, hrest, hlen, hunseen⟩ := ih.mp hwalk
          refine ⟨a :: rest, (livePath_child hrow hparent).mpr ⟨rest, rfl, hrest, ?_⟩,
            Nat.succ_le_succ hlen, ?_⟩
          · rintro ⟨row', hb', hdead⟩
            obtain rfl := Option.some.inj (hb.symm.trans hb')
            exact halive hdead
          · intro c hc
            rcases List.mem_cons.mp hc with rfl | hc
            · exact hfresh
            · exact fun hv => hunseen c hc (List.mem_cons_of_mem a hv)
        · rintro ⟨path, hpath, hlen, hfresh⟩
          have hnodup := hpath.descent.nodup
          obtain ⟨rest, rfl, hrest, halive⟩ := (livePath_child hrow hparent).mp hpath
          obtain ⟨hnotMem, -⟩ := List.nodup_cons.mp hnodup
          obtain ⟨parentRow, hb⟩ := hrest.stored b hrest.descent.mem_start
          refine ⟨hfresh a List.mem_cons_self, a, ⟨hfits, rfl⟩, ?_⟩
          simp only [hrow, hparent, bind_eq_ok, ensure_eq_ok, exists_const, okOr_eq_ok]
          refine ⟨fun hself => hnotMem (hself ▸ hrest.descent.mem_start), parentRow, hb,
            fun hdead => halive ⟨parentRow, hb, hdead⟩, ih.mpr ⟨rest, hrest,
              Nat.le_of_succ_le_succ hlen, fun c hc hv => ?_⟩⟩
          rcases List.mem_cons.mp hv with rfl | hv
          · exact hnotMem hc
          · exact hfresh c (List.mem_cons_of_mem a hc) hv

/-- On a live chain that is longer than its steps, the walk gives up. -/
theorem ancestryWalk_too_deep (hpath : LivePath S.rows a path) (hlen : n < path.length)
    (hfresh : ∀ b ∈ path, b ∉ visited) : ancestryWalk S.rows slot n a visited =
      .error (.conflict "conflicting finalized ancestry: parent chain too deep") := by
  induction n generalizing a path visited with
  | zero => rfl
  | succ n ih =>
    have ha := hpath.descent.mem_start
    obtain ⟨row, hrow⟩ := hpath.stored a ha
    have hkey : u64ToI64 a = .ok a := u64ToI64_eq_ok.mpr ⟨S.bigint a row hrow, rfl⟩
    cases hparent : row.parentSlot with
    | none =>
      obtain rfl := (livePath_root hrow hparent).mp hpath
      exact absurd hlen (Nat.not_lt.mpr (Nat.succ_le_succ (Nat.zero_le n)))
    | some b =>
      have hnodup := hpath.descent.nodup
      obtain ⟨rest, rfl, hrest, halive⟩ := (livePath_child hrow hparent).mp hpath
      obtain ⟨hnotMem, -⟩ := List.nodup_cons.mp hnodup
      have hbmem := hrest.descent.mem_start
      obtain ⟨parentRow, hb⟩ := hrest.stored b hbmem
      have hself : b ≠ a := fun he => hnotMem (he ▸ hbmem)
      have hdead : parentRow.status ≠ .dead := fun hdead => halive ⟨parentRow, hb, hdead⟩
      have hfresh' : ∀ c ∈ rest, c ∉ a :: visited := by
        intro c hc hv
        rcases List.mem_cons.mp hv with rfl | hv
        · exact hnotMem hc
        · exact hfresh c (List.mem_cons_of_mem a hc) hv
      have hwalk := ih hrest (Nat.lt_of_succ_lt_succ hlen) hfresh'
      simp only [ancestryWalk, hkey, hrow, hparent, hb, okOr, ensure, hfresh a ha, hself, hdead,
        not_false_eq_true, ne_eq, if_true, ok_bind]
      exact hwalk

/-- The ancestry of a slot is accepted exactly when its parent chain is live and has no more slots
than the walk looks at; a live chain that is longer is refused for its length. -/
theorem ancestry_accepted_iff (S : StoredSlots) (slot : UInt64) :
    (assertAncestry S.rows slot = .ok () ↔
      LiveChain S.rows slot ∧ (lineage S.rows slot).encard ≤ maxAncestryDepth) ∧
    (LiveChain S.rows slot → ¬ (lineage S.rows slot).encard ≤ maxAncestryDepth →
      assertAncestry S.rows slot =
        .error (.conflict "conflicting finalized ancestry: parent chain too deep")) := by
  have hbound : ∀ {path}, LivePath S.rows slot path →
      ((lineage S.rows slot).encard ≤ maxAncestryDepth ↔ path.length ≤ maxAncestryDepth) := by
    intro path hpath
    rw [hpath.encard_eq, Nat.cast_le]
  constructor
  · rw [assertAncestry, ancestryWalk_eq_ok, ← exists_livePath_iff]
    constructor
    · rintro ⟨path, hpath, hlen, -⟩
      exact ⟨⟨path, hpath⟩, (hbound hpath).mpr hlen⟩
    · rintro ⟨⟨path, hpath⟩, hlen⟩
      exact ⟨path, hpath, (hbound hpath).mp hlen, fun _ _ => List.not_mem_nil⟩
  · intro hlive hlong
    obtain ⟨path, hpath⟩ := exists_livePath_iff.mpr hlive
    rw [hbound hpath, Nat.not_le] at hlong
    exact ancestryWalk_too_deep hpath hlong fun _ _ => List.not_mem_nil

end Walks

namespace Line

/-- A slot whose parent is the one before it. -/
def link (i : ℕ) : SlotRow where
  parentSlot := match i with
    | 0 => none
    | i + 1 => some (UInt64.ofNat i)
  status := .confirmed
  blockTime := none

/-- The first slots, one after the other. -/
def line : ℕ → Table UInt64 SlotRow
  | 0 => .empty
  | n + 1 => (line n).put (UInt64.ofNat n) (link n)

/-- The chain of a slot of the line. -/
def countdown : ℕ → List UInt64
  | 0 => [UInt64.ofNat 0]
  | i + 1 => UInt64.ofNat (i + 1) :: countdown i

variable {n i : ℕ}

theorem length_countdown : (countdown i).length = i + 1 := by
  induction i with
  | zero => rfl
  | succ i ih => rw [countdown, List.length_cons, ih]

theorem toNat_slot (hi : i < 2 ^ 63) : (UInt64.ofNat i).toNat = i :=
  UInt64.toNat_ofNat_of_lt' (by change i < 2 ^ 64; omega)

theorem get_line (hn : n ≤ 2 ^ 63) (hi : i < n) :
    (line n).get (UInt64.ofNat i) = some (link i) := by
  induction n with
  | zero => exact absurd hi (Nat.not_lt_zero i)
  | succ n ih =>
    rw [line, Table.get_put]
    split
    · rename_i he
      have hin : i = n := by
        have ht := congrArg UInt64.toNat he
        rwa [toNat_slot (by omega), toNat_slot (by omega)] at ht
      rw [hin]
    · rename_i hne
      have hlt : i < n := by
        rcases Nat.lt_succ_iff_lt_or_eq.mp hi with hlt | rfl
        · exact hlt
        · exact absurd rfl hne
      exact ih (by omega) hlt

theorem lt_of_get_line {k : UInt64} {row : SlotRow} (hn : n ≤ 2 ^ 63)
    (h : (line n).get k = some row) : k.toNat < 2 ^ 63 := by
  induction n with
  | zero => cases h
  | succ n ih =>
    rw [line, Table.get_put] at h
    split at h
    · rename_i hk
      rw [hk, toNat_slot (by omega)]
      omega
    · exact ih (by omega) h

/-- The line as a table of stored slots. -/
def stored (n : ℕ) (hn : n ≤ 2 ^ 63) : StoredSlots where
  rows := line n
  bigint := fun _ _ h => lt_of_get_line hn h

theorem livePath_line (hn : n ≤ 2 ^ 63) (hi : i < n) :
    LivePath (line n) (UInt64.ofNat i) (countdown i) := by
  induction i with
  | zero => exact (livePath_root (get_line hn hi) rfl).mpr rfl
  | succ i ih =>
    refine (livePath_child (get_line hn hi) rfl).mpr ⟨_, rfl, ih (by omega), ?_⟩
    rintro ⟨row, hrow, hdead⟩
    rw [get_line hn (by omega : i < n), Option.some.injEq] at hrow
    subst hrow
    cases hdead

theorem liveChain_line (hn : n ≤ 2 ^ 63) (hi : i < n) :
    LiveChain (line n) (UInt64.ofNat i) ∧
      (lineage (line n) (UInt64.ofNat i)).encard = ↑(i + 1) := by
  have hpath := livePath_line hn hi
  rw [hpath.encard_eq, length_countdown]
  exact ⟨exists_livePath_iff.mp ⟨_, hpath⟩, rfl⟩

/-- The 256th slot of a line is accepted, the 257th is not. -/
theorem ancestry_accepted_iff_line :
    assertAncestry (line 257) (UInt64.ofNat 255) = .ok () ∧
      assertAncestry (line 257) (UInt64.ofNat 256) =
        .error (.conflict "conflicting finalized ancestry: parent chain too deep") := by
  have hfits : 257 ≤ 2 ^ 63 := by decide
  obtain ⟨hlive, hcard⟩ := liveChain_line (i := 255) hfits (by decide)
  obtain ⟨hlive', hcard'⟩ := liveChain_line (i := 256) hfits (by decide)
  constructor
  · refine (ancestry_accepted_iff (stored 257 hfits) _).1.mpr ⟨hlive, ?_⟩
    rw [show (stored 257 hfits).rows = line 257 from rfl, hcard, Nat.cast_le]
    decide
  · refine (ancestry_accepted_iff (stored 257 hfits) _).2 hlive' ?_
    rw [show (stored 257 hfits).rows = line 257 from rfl, hcard', Nat.cast_le]
    decide

/-- The last of 257 live slots, each the child of the one before, is refused. -/
theorem live_chain_refused :
    ¬ ∀ (S : StoredSlots) (slot : UInt64), StoredAt S.rows slot →
      (assertAncestry S.rows slot = .ok () ↔ LiveChain S.rows slot) := by
  intro h
  have hfits : 257 ≤ 2 ^ 63 := by decide
  have hpath := livePath_line (i := 256) hfits (by decide)
  have hok := (h (stored 257 hfits) (UInt64.ofNat 256) ⟨_, get_line hfits (by decide)⟩).mpr
    (liveChain_line (i := 256) hfits (by decide)).1
  have hdeep : assertAncestry (stored 257 hfits).rows (UInt64.ofNat 256) =
      .error (.conflict "conflicting finalized ancestry: parent chain too deep") :=
    ancestryWalk_too_deep hpath (by rw [length_countdown, maxAncestryDepth]; decide)
      fun _ _ => List.not_mem_nil
  rw [hdeep] at hok
  cases hok

end Line

end AgentBond.Indexer
