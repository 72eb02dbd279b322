import Mathlib.Data.List.Sort
import Mathlib.Data.Set.Card

/-! # Paging by a cursor

Rows are read in pages, in the order of their keys; a page ends with a cursor
when there are more rows, and the next one starts after it. Whatever happens to
the rows between the pages, no key comes up twice, and a row that stays comes up.
A page that names a next one is full, so rows that stay as they are run out.
-/

namespace Foundation.Paging

variable {κ ρ : Type}

/-- The rows of a page, and the key after which the next one starts. -/
structure Page (κ ρ : Type) where
  rows : List (κ × ρ)
  next : Option κ

section Definitions

variable (r : κ → κ → Prop) [DecidableRel r]

/-- The key comes after the cursor. -/
def after : Option κ → κ → Bool
  | none, _ => true
  | some c, k => !decide (r k c)

/-- The rows after the cursor in the order of their keys. -/
def ordered (cursor : Option κ) (rows : List (κ × ρ)) : List (κ × ρ) :=
  (rows.filter fun e => after r cursor e.1).insertionSort fun a b => r a.1 b.1

/-- One row more than the limit is fetched, to see whether there are more. -/
def page (limit : ℕ) (cursor : Option κ) (rows : List (κ × ρ)) : Page κ ρ :=
  let fetched := (ordered r cursor rows).take (limit + 1)
  let first := fetched.take limit
  { rows := first, next := if limit < fetched.length then first.getLast?.map Prod.fst else none }

/-- A page has room for a key: it is one of those after the cursor, and fewer of them than the limit
come before it. -/
def HasRoom (limit : ℕ) (cursor : Option κ) (keys : Set κ) (k : κ) : Prop :=
  k ∈ keys ∧ after r cursor k = true ∧
    {j | j ∈ keys ∧ after r cursor j = true ∧ r j k ∧ j ≠ k}.encard < limit

/-- Pages read one after the other, each from the rows there are by then, up to the last one. -/
inductive Walk (limit : ℕ) : Option κ → List (List (κ × ρ)) → List (κ × ρ) → Prop
  | last {cursor : Option κ} {rows : List (κ × ρ)} (h : (page r limit cursor rows).next = none) :
      Walk limit cursor [rows] (page r limit cursor rows).rows
  | more {cursor : Option κ} {c : κ} {rows : List (κ × ρ)} {rest : List (List (κ × ρ))}
      {items : List (κ × ρ)} (h : (page r limit cursor rows).next = some c)
      (hrest : Walk limit (some c) rest items) :
      Walk limit cursor (rows :: rest) ((page r limit cursor rows).rows ++ items)

end Definitions

variable {r : κ → κ → Prop} [DecidableRel r] {limit : ℕ} {cursor : Option κ} {c k : κ}
  {rows : List (κ × ρ)} {e : κ × ρ}

@[simp] theorem after_none : after r none k = true := rfl

@[simp] theorem after_some : after r (some c) k = true ↔ ¬ r k c := by
  simp [after]

theorem mem_ordered : e ∈ ordered r cursor rows ↔ e ∈ rows ∧ after r cursor e.1 = true := by
  rw [ordered, List.mem_insertionSort, List.mem_filter]

theorem nodup_ordered {c : Option κ} (hkeys : (rows.map Prod.fst).Nodup) :
    ((ordered r c rows).map Prod.fst).Nodup := by
  have hperm := (List.perm_insertionSort (fun a b : κ × ρ => r a.1 b.1)
    (rows.filter fun e => after r c e.1)).map Prod.fst
  exact hperm.nodup_iff.mpr (hkeys.sublist (List.filter_sublist.map _))

theorem rows_page : (page r limit cursor rows).rows = (ordered r cursor rows).take limit := by
  rw [page, List.take_take, Nat.min_eq_left (Nat.le_succ limit)]

theorem mem_of_mem_page (h : e ∈ (page r limit cursor rows).rows) :
    e ∈ rows ∧ after r cursor e.1 = true := by
  rw [rows_page] at h
  exact mem_ordered.mp (List.mem_of_mem_take h)

theorem next_page : (page r limit cursor rows).next =
    if limit < (ordered r cursor rows).length then
      ((ordered r cursor rows).take limit).getLast?.map Prod.fst else none := by
  simp only [page, List.take_take, Nat.min_eq_left (Nat.le_succ limit), List.length_take]
  by_cases h : limit < (ordered r cursor rows).length
  · rw [if_pos h, if_pos (by omega)]
  · rw [if_neg h, if_neg (by omega)]

theorem length_page_of_next (h : (page r limit cursor rows).next = some c) :
    (page r limit cursor rows).rows.length = limit := by
  rw [next_page] at h
  split at h
  · rename_i hlen
    rw [rows_page, List.length_take, Nat.min_eq_left hlen.le]
  · cases h

theorem exists_last_of_next (h : (page r limit cursor rows).next = some c) :
    ∃ init row, (ordered r cursor rows).take limit = init ++ [(c, row)] := by
  rw [next_page] at h
  split at h
  · obtain ⟨⟨k, row⟩, hlast, rfl⟩ := Option.map_eq_some_iff.mp h
    obtain ⟨init, hinit⟩ := List.getLast?_eq_some_iff.mp hlast
    exact ⟨init, row, hinit⟩
  · cases h

section Ordered

variable [Std.Total r] [IsTrans κ r]

theorem pairwise_ordered (cursor : Option κ) (rows : List (κ × ρ)) :
    (ordered r cursor rows).Pairwise fun a b => r a.1 b.1 := by
  have : Std.Total fun a b : κ × ρ => r a.1 b.1 := ⟨fun a b => Std.Total.total a.1 b.1⟩
  have : IsTrans (κ × ρ) fun a b => r a.1 b.1 := ⟨fun _ _ _ h h' => IsTrans.trans _ _ _ h h'⟩
  exact List.pairwise_insertionSort _ _

theorem le_of_next (h : (page r limit cursor rows).next = some c)
    (he : e ∈ (page r limit cursor rows).rows) : r e.1 c := by
  obtain ⟨init, row, hinit⟩ := exists_last_of_next h
  have hsorted := (pairwise_ordered (r := r) cursor rows).sublist
    (List.take_sublist limit _)
  rw [rows_page, hinit] at he
  rw [hinit] at hsorted
  rcases List.mem_append.mp he with he | he
  · exact (List.pairwise_append.mp hsorted).2.2 e he (c, row) (List.mem_singleton_self _)
  · rw [List.mem_singleton.mp he]
    exact (Std.Total.total c c).elim id id

theorem mem_page_or_after [Std.Antisymm r] (hlimit : 0 < limit)
    (hkeys : (rows.map Prod.fst).Nodup) (he : e ∈ rows) (hafter : after r cursor e.1 = true) :
    e ∈ (page r limit cursor rows).rows ∨
      ∃ c, (page r limit cursor rows).next = some c ∧ after r (some c) e.1 = true := by
  have hmem : e ∈ ordered r cursor rows := mem_ordered.mpr ⟨he, hafter⟩
  rw [← List.take_append_drop limit (ordered r cursor rows), List.mem_append] at hmem
  rcases hmem with hmem | hmem
  · rw [rows_page]
    exact .inl hmem
  · have hlen : limit < (ordered r cursor rows).length := by
      have hpos := List.length_pos_of_mem hmem
      rw [List.length_drop] at hpos
      omega
    have hne : (ordered r cursor rows).take limit ≠ [] := by
      intro hnil
      have hzero := congrArg List.length hnil
      rw [List.length_take, List.length_nil] at hzero
      omega
    obtain ⟨init, last, hinit⟩ := List.eq_nil_or_concat _ |>.resolve_left hne
    have hnext : (page r limit cursor rows).next = some last.1 := by
      rw [next_page, if_pos hlen, hinit]
      simp
    refine .inr ⟨last.1, hnext, after_some.mpr fun hle => ?_⟩
    have hlast : last ∈ (ordered r cursor rows).take limit := by
      rw [hinit]
      simp
    have hsorted := pairwise_ordered (r := r) cursor rows
    rw [← List.take_append_drop limit (ordered r cursor rows), List.pairwise_append] at hsorted
    have hkey : last.1 = e.1 := Std.Antisymm.antisymm _ _ (hsorted.2.2 last hlast e hmem) hle
    have hnodup := nodup_ordered (r := r) (c := cursor) hkeys
    rw [← List.take_append_drop limit (ordered r cursor rows), List.map_append,
      List.nodup_append] at hnodup
    exact hnodup.2.2 _ (List.mem_map_of_mem hlast) _ (List.mem_map_of_mem hmem) hkey

theorem strict_ordered [Std.Antisymm r] (hkeys : (rows.map Prod.fst).Nodup) :
    (ordered r cursor rows).Pairwise fun a b => ¬ r b.1 a.1 :=
  ((pairwise_ordered _ _).and (List.pairwise_map.mp (nodup_ordered hkeys))).imp fun h h' =>
    h.2 (Std.Antisymm.antisymm _ _ h.1 h')

theorem pairwise_page [Std.Antisymm r] (hkeys : (rows.map Prod.fst).Nodup) :
    (page r limit cursor rows).rows.Pairwise fun a b => ¬ r b.1 a.1 := by
  rw [rows_page]
  exact (strict_ordered hkeys).sublist (List.take_sublist limit _)

theorem length_ordered_lt (h : (page r limit cursor rows).next = some c) :
    (ordered r (some c) rows).length < (ordered r cursor rows).length := by
  obtain ⟨init, row, hlast⟩ := exists_last_of_next h
  have hmem : (c, row) ∈ ordered r cursor rows := by
    refine List.mem_of_mem_take (i := limit) ?_
    rw [hlast]
    exact List.mem_append_right _ (List.mem_singleton_self _)
  obtain ⟨hrow, hc⟩ := mem_ordered.mp hmem
  rw [ordered, ordered, List.length_insertionSort, List.length_insertionSort]
  -- what comes after the new cursor came after the old one, and the last row does no more
  have himp : ∀ e : κ × ρ, after r (some c) e.1 = true → after r cursor e.1 = true := by
    intro e he
    cases cursor with
    | none => rfl
    | some c₀ =>
      have hle : r c₀ c := (Std.Total.total c₀ c).resolve_right (after_some.mp hc)
      exact after_some.mpr fun hec => after_some.mp he (IsTrans.trans _ _ _ hec hle)
  have hfilter : rows.filter (fun e => after r (some c) e.1) =
      (rows.filter fun e => after r cursor e.1).filter fun e => after r (some c) e.1 := by
    rw [List.filter_filter]
    refine List.filter_congr fun e _ => ?_
    rw [Bool.eq_iff_iff, Bool.and_eq_true]
    exact ⟨fun he => ⟨he, himp e he⟩, And.left⟩
  rw [hfilter]
  refine List.length_filter_lt_length_iff_exists.mpr ⟨(c, row), ?_, ?_⟩
  · exact List.mem_filter.mpr ⟨hrow, hc⟩
  · rw [after_some]
    exact not_not_intro ((Std.Total.total c c).elim id id)

/-- Rows that stay as they are can be walked through to the end from every cursor. -/
theorem exists_walk (limit : ℕ) (rows : List (κ × ρ)) (cursor : Option κ) :
    ∃ tables items, Walk r limit cursor tables items ∧ ∀ t ∈ tables, t = rows := by
  -- on the number of rows after the cursor
  induction hn : (ordered r cursor rows).length using Nat.strong_induction_on
    generalizing cursor with
  | _ n ih =>
    subst hn
    cases hnext : (page r limit cursor rows).next with
    | none => exact ⟨_, _, .last hnext, fun t ht => List.mem_singleton.mp ht⟩
    | some c =>
      obtain ⟨tables, items, hwalk, htables⟩ := ih _ (length_ordered_lt hnext) (some c) rfl
      exact ⟨_, _, .more hnext hwalk, List.forall_mem_cons.mpr ⟨rfl, htables⟩⟩

omit [IsTrans κ r] in
/-- Of sorted rows the first `n` are those with fewer than `n` rows before them. -/
theorem mem_take_iff {n : ℕ} {l : List (κ × ρ)} [DecidableEq κ]
    (hl : l.Pairwise fun a b => ¬ r b.1 a.1) (he : e ∈ l) :
    e ∈ l.take n ↔ (l.filter fun a => r a.1 e.1 ∧ a.1 ≠ e.1).length < n := by
  induction l generalizing n with
  | nil => cases he
  | cons a l ih =>
    obtain ⟨ha, hl⟩ := List.pairwise_cons.mp hl
    rcases List.mem_cons.mp he with rfl | hmem
    · have hnil : l.filter (fun a => decide (r a.1 e.1 ∧ a.1 ≠ e.1)) = [] :=
        List.filter_eq_nil_iff.mpr fun b hb => by simp [ha b hb]
      rw [List.filter_cons_of_neg (by simp), hnil, List.length_nil]
      cases n with
      | zero => simp
      | succ n => simp
    · have hle : r a.1 e.1 := (Std.Total.total a.1 e.1).resolve_right (ha e hmem)
      have hne : a.1 ≠ e.1 := fun heq => ha e hmem (heq ▸ hle)
      rw [List.filter_cons_of_pos (by simp [hle, hne]), List.length_cons]
      cases n with
      | zero => simp
      | succ n =>
        rw [List.take_succ_cons, List.mem_cons, ih hl hmem, Nat.succ_lt_succ_iff]
        exact or_iff_right fun heq => hne (heq ▸ rfl)

theorem mem_page_iff [Std.Antisymm r] (hkeys : (rows.map Prod.fst).Nodup) :
    e ∈ (page r limit cursor rows).rows ↔
      e ∈ rows ∧ HasRoom r limit cursor {k | ∃ row, (k, row) ∈ rows} e.1 := by
  classical
  have hcount : {j | j ∈ {k | ∃ row, (k, row) ∈ rows} ∧ after r cursor j = true ∧ r j e.1 ∧
      j ≠ e.1}.encard =
        ((ordered r cursor rows).filter fun a => r a.1 e.1 ∧ a.1 ≠ e.1).length := by
    have hset : {j | j ∈ {k | ∃ row, (k, row) ∈ rows} ∧ after r cursor j = true ∧ r j e.1 ∧
        j ≠ e.1} = ((((ordered r cursor rows).filter fun a =>
          r a.1 e.1 ∧ a.1 ≠ e.1).map Prod.fst).toFinset : Set κ) := by
      ext j
      simp only [Set.mem_ofPred_eq, List.coe_toFinset, List.mem_map, List.mem_filter, mem_ordered,
        decide_eq_true_eq, Prod.exists, exists_and_right, exists_eq_right]
      exact and_assoc.symm
    have hnodup : (((ordered r cursor rows).filter fun a =>
        r a.1 e.1 ∧ a.1 ≠ e.1).map Prod.fst).Nodup :=
      (nodup_ordered hkeys).sublist (List.filter_sublist.map _)
    rw [hset, Set.encard_coe_eq_coe_finsetCard, List.toFinset_card_of_nodup hnodup,
      List.length_map]
  have hstrict : (ordered r cursor rows).Pairwise fun a b => ¬ r b.1 a.1 := strict_ordered hkeys
  rw [rows_page, HasRoom, hcount, Nat.cast_lt]
  constructor
  · intro he
    have hmem := List.mem_of_mem_take he
    obtain ⟨hrow, hafter⟩ := mem_ordered.mp hmem
    exact ⟨hrow, ⟨e.2, hrow⟩, hafter, (mem_take_iff hstrict hmem).mp he⟩
  · rintro ⟨hrow, -, hafter, hlt⟩
    exact (mem_take_iff hstrict (mem_ordered.mpr ⟨hrow, hafter⟩)).mpr hlt

variable {tables : List (List (κ × ρ))} {items : List (κ × ρ)}

theorem Walk.pairwise [Std.Antisymm r] (h : Walk r limit cursor tables items)
    (hkeys : ∀ rows ∈ tables, (rows.map Prod.fst).Nodup) :
    items.Pairwise (fun a b => ¬ r b.1 a.1) ∧ ∀ e ∈ items, after r cursor e.1 = true := by
  induction h with
  | last => exact ⟨pairwise_page (hkeys _ List.mem_cons_self), fun e he => (mem_of_mem_page he).2⟩
  | @more cursor c rows rest items hnext _ ih =>
    obtain ⟨hpair, hafter⟩ := ih fun rows hrows => hkeys rows (List.mem_cons_of_mem _ hrows)
    constructor
    · refine List.pairwise_append.mpr ⟨pairwise_page (hkeys _ List.mem_cons_self), hpair, ?_⟩
      intro a ha b hb hba
      exact after_some.mp (hafter b hb) (IsTrans.trans _ _ _ hba (le_of_next hnext ha))
    · intro e he
      rcases List.mem_append.mp he with hpage | hitem
      · exact (mem_of_mem_page hpage).2
      · cases cursor with
        | none => rfl
        | some c₀ =>
          obtain ⟨init, row, hinit⟩ := exists_last_of_next hnext
          have hlast : (c, row) ∈ (page r limit (some c₀) rows).rows := by
            rw [rows_page, hinit]
            simp
          have hc := after_some.mp (mem_of_mem_page hlast).2
          refine after_some.mpr fun hle => after_some.mp (hafter e hitem) ?_
          exact IsTrans.trans _ _ _ hle ((Std.Total.total c₀ c).resolve_right hc)

/-- A walk comes to every row after the cursor that is there at every page. -/
theorem Walk.complete [Std.Antisymm r] (h : Walk r limit cursor tables items) (hlimit : 0 < limit)
    (hkeys : ∀ rows ∈ tables, (rows.map Prod.fst).Nodup) (he : ∀ rows ∈ tables, e ∈ rows)
    (hafter : after r cursor e.1 = true) : e ∈ items := by
  induction h with
  | last hnext =>
    rcases mem_page_or_after hlimit (hkeys _ List.mem_cons_self) (he _ List.mem_cons_self) hafter
      with hmem | ⟨c, hc, -⟩
    · exact hmem
    · cases hnext.symm.trans hc
  | @more cursor c rows rest items hnext _ ih =>
    rcases mem_page_or_after hlimit (hkeys _ List.mem_cons_self) (he _ List.mem_cons_self) hafter
      with hmem | ⟨c', hc, hlater⟩
    · exact List.mem_append_left _ hmem
    · cases hnext.symm.trans hc
      exact List.mem_append_right _
        (ih (fun rows hrows => hkeys rows (List.mem_cons_of_mem _ hrows))
        (fun rows hrows => he rows (List.mem_cons_of_mem _ hrows)) hlater)

end Ordered

end Foundation.Paging
