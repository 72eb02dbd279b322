import Mathlib.Data.List.Basic

/-! # Tables

A table holds at most one row for each key. Rows are read, stored, inserted
unless their key is taken, and updated or deleted by a condition.
-/

namespace Foundation

@[ext] structure Table (κ ρ : Type) where
  rows : List (κ × ρ)
  nodup : (rows.map Prod.fst).Nodup

namespace Table

variable {κ ρ : Type}

def empty : Table κ ρ := ⟨[], List.nodup_nil⟩

/-- The rows that meet the condition. -/
def selectWhere (t : Table κ ρ) (p : κ → ρ → Bool) : List (κ × ρ) :=
  t.rows.filter fun e => p e.1 e.2

def deleteWhere (t : Table κ ρ) (p : κ → ρ → Bool) : Table κ ρ where
  rows := t.rows.filter fun e => !p e.1 e.2
  nodup := t.nodup.sublist (List.filter_sublist.map _)

def updateWhere (t : Table κ ρ) (p : κ → ρ → Bool) (f : ρ → ρ) : Table κ ρ where
  rows := t.rows.map fun e => (e.1, if p e.1 e.2 then f e.2 else e.2)
  nodup := by rw [List.map_map]; exact t.nodup

variable [DecidableEq κ]

def get (t : Table κ ρ) (k : κ) : Option ρ := t.rows.lookup k

/-- Store the row under the key, whatever was there. -/
def put (t : Table κ ρ) (k : κ) (r : ρ) : Table κ ρ where
  rows := (k, r) :: t.rows.filter fun e => e.1 ≠ k
  nodup := by
    refine List.nodup_cons.mpr ⟨fun hk => ?_, t.nodup.sublist (List.filter_sublist.map _)⟩
    obtain ⟨e, he, hek⟩ := List.mem_map.mp hk
    simpa [hek] using (List.mem_filter.mp he).2

/-- Insert the row unless the key is taken. -/
def insertNew (t : Table κ ρ) (k : κ) (r : ρ) : Table κ ρ :=
  match t.get k with
  | some _ => t
  | none => t.put k r

/-- Store the row unless the key is taken by one that does not give way. -/
def upsertWhere (t : Table κ ρ) (k : κ) (r : ρ) (p : ρ → Bool) : Table κ ρ :=
  match t.get k with
  | some old => if p old then t.put k r else t
  | none => t.put k r

variable {t : Table κ ρ} {k i : κ} {r : ρ}

@[simp] theorem get_empty : (empty : Table κ ρ).get k = none := rfl

theorem get_eq_some : t.get k = some r ↔ (k, r) ∈ t.rows := by
  constructor
  · intro h
    obtain ⟨l₁, l₂, he, -⟩ := List.lookup_eq_some_iff.mp h
    exact he ▸ List.mem_append_right _ List.mem_cons_self
  · intro h
    obtain ⟨l₁, l₂, he⟩ := List.append_of_mem h
    refine List.lookup_eq_some_iff.mpr ⟨l₁, l₂, he, fun e hmem => ?_⟩
    have hnodup := t.nodup
    rw [he, List.map_append, List.map_cons, List.nodup_append] at hnodup
    have hne := hnodup.2.2 e.1 (List.mem_map_of_mem hmem) k List.mem_cons_self
    simpa using hne.symm

theorem mem_selectWhere {p : κ → ρ → Bool} {e : κ × ρ} :
    e ∈ t.selectWhere p ↔ t.get e.1 = some e.2 ∧ p e.1 e.2 = true := by
  rw [selectWhere, List.mem_filter, get_eq_some]

theorem get_congr {t' : Table κ ρ} {j : κ} (h : ∀ r, (k, r) ∈ t.rows ↔ (j, r) ∈ t'.rows) :
    t.get k = t'.get j := by
  refine Option.ext fun r => ?_
  rw [get_eq_some, get_eq_some, h r]

theorem get_of_perm {t' : Table κ ρ} (h : t'.rows.Perm t.rows) (k : κ) : t'.get k = t.get k :=
  get_congr fun _ => h.mem_iff

@[simp] theorem get_put_self : (t.put k r).get k = some r :=
  get_eq_some.mpr List.mem_cons_self

theorem get_put_of_ne (h : i ≠ k) : (t.put k r).get i = t.get i :=
  get_congr fun r' => by simp [put, h]

theorem get_put : (t.put k r).get i = if i = k then some r else t.get i := by
  split
  · rename_i h; rw [h, get_put_self]
  · rename_i h; exact get_put_of_ne h

theorem get_deleteWhere {p : κ → ρ → Bool} :
    (t.deleteWhere p).get k = (t.get k).filter fun r => !p k r := by
  refine Option.ext fun r => ?_
  rw [get_eq_some, Option.filter_eq_some_iff, get_eq_some]
  simp [deleteWhere]

theorem get_updateWhere {p : κ → ρ → Bool} {f : ρ → ρ} :
    (t.updateWhere p f).get k = (t.get k).map fun r => if p k r then f r else r := by
  refine Option.ext fun r => ?_
  rw [get_eq_some, Option.map_eq_some_iff]
  simp only [get_eq_some, updateWhere, List.mem_map, Prod.mk.injEq, Prod.exists]
  constructor
  · rintro ⟨_, r', h, rfl, rfl⟩; exact ⟨r', h, rfl⟩
  · rintro ⟨r', h, rfl⟩; exact ⟨k, r', h, rfl, rfl⟩

/-- A deletion that takes nothing away meets its condition nowhere. -/
theorem get_deleteWhere_eq_iff {p : κ → ρ → Bool} :
    (∀ k, (t.deleteWhere p).get k = t.get k) ↔ ∀ k r, t.get k = some r → p k r = false := by
  constructor
  · intro h k r hr
    have hk := h k
    rw [get_deleteWhere, hr, Option.filter_eq_some_iff] at hk
    simpa using hk.2
  · intro h k
    rw [get_deleteWhere]
    cases hr : t.get k with
    | none => rfl
    | some r => exact Option.filter_some_pos (by simp [h k r hr])

theorem get_updateWhere_eq_iff {p : κ → ρ → Bool} {f : ρ → ρ} :
    (∀ k, (t.updateWhere p f).get k = t.get k) ↔
      ∀ k r, t.get k = some r → p k r = true → f r = r := by
  constructor
  · intro h k r hr hp
    have hk := h k
    rw [get_updateWhere, hr, Option.map_some, if_pos hp] at hk
    exact Option.some.inj hk
  · intro h k
    rw [get_updateWhere]
    cases hr : t.get k with
    | none => rfl
    | some r =>
      rw [Option.map_some]
      split
      · rename_i hp
        rw [h k r hr hp]
      · rfl

theorem updateWhere_eq_self {p : κ → ρ → Bool} {f : ρ → ρ}
    (h : ∀ k r, t.get k = some r → p k r = true → f r = r) : t.updateWhere p f = t := by
  apply Table.ext
  rw [updateWhere]
  nth_rewrite 2 [← List.map_id t.rows]
  apply List.map_congr_left
  rintro ⟨k, r⟩ hmem
  by_cases hp : p k r = true
  · simp [hp, h k r (get_eq_some.mpr hmem) hp]
  · simp [hp]

theorem length_deleteWhere_lt {p : κ → ρ → Bool} (h : t.get k = some r) (hp : p k r = true) :
    (t.deleteWhere p).rows.length < t.rows.length := by
  apply List.length_filter_lt_length_iff_exists.mpr
  exact ⟨(k, r), get_eq_some.mp h, by simp [hp]⟩

theorem length_put_of_none (h : t.get k = none) :
    (t.put k r).rows.length = t.rows.length + 1 := by
  rw [put, List.length_cons, List.filter_eq_self.mpr]
  rintro ⟨i, r'⟩ hmem
  refine decide_eq_true fun hi => ?_
  subst hi
  cases h.symm.trans (get_eq_some.mpr hmem)

theorem length_put_of_some {old : ρ} (h : t.get k = some old) :
    (t.put k r).rows.length ≤ t.rows.length := by
  rw [put, List.length_cons]
  apply Nat.succ_le_of_lt
  apply List.length_filter_lt_length_iff_exists.mpr
  exact ⟨(k, old), get_eq_some.mp h, by simp⟩

theorem get_insertNew : (t.insertNew k r).get i =
    if i = k then some ((t.get k).getD r) else t.get i := by
  unfold insertNew
  split
  · rename_i old h
    split
    · rename_i hi; rw [hi, h, Option.getD_some]
    · rfl
  · rename_i h
    rw [get_put, h, Option.getD_none]

theorem get_upsertWhere {p : ρ → Bool} : (t.upsertWhere k r p).get i =
    if i = k then (match t.get k with
      | some old => if p old then some r else some old
      | none => some r) else t.get i := by
  unfold upsertWhere
  split
  · rename_i old h
    split
    · rw [get_put]
    · split
      · rename_i hi; rw [hi, h]
      · rfl
  · rw [get_put]

end Table

end Foundation
