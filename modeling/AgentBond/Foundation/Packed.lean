import Mathlib.Data.Finset.Card
import Mathlib.Data.List.Perm.Basic

/-! # Finite sets in the first slots of a table

A table holds a set when its first slots hold the members, once each, and the
others are blank. A new member takes the first free slot, and the last member
takes the slot of the one that leaves.
-/

namespace Foundation

variable {α : Type} {blank x : α} {slots : List α} {count i : ℕ}

structure Packed (blank : α) (slots : List α) (count : ℕ) : Prop where
  le : count ≤ slots.length
  nodup : (slots.take count).Nodup
  notMem : blank ∉ slots.take count
  rest : ∀ y ∈ slots.drop count, y = blank

/-- The slots after the last member has taken the slot of another. -/
def swapRemove (blank : α) (slots : List α) (last i : ℕ) : List α :=
  (slots.set i (slots[last]?.getD blank)).set last blank

theorem take_set_next (h : count < slots.length) :
    (slots.set count x).take (count + 1) = slots.take count ++ [x] := by
  rw [List.take_succ_eq_append_getElem (by rwa [List.length_set]), List.getElem_set_self,
    List.take_set_of_le le_rfl]

theorem take_swapRemove (h : count < slots.length) (hi : i ≤ count) :
    ((swapRemove blank slots count i).take count).Perm
      ((slots.take (count + 1)).eraseIdx i) := by
  have hlen : (slots.take count).length = count := by
    rw [List.length_take]
    omega
  have hlast : slots[count]?.getD blank = slots[count] := by
    rw [List.getElem?_eq_getElem h, Option.getD_some]
  rw [swapRemove, hlast, List.take_set_of_le le_rfl, List.take_set,
    List.take_succ_eq_append_getElem h]
  rcases hi.lt_or_eq with hlt | rfl
  · rw [List.eraseIdx_append_of_lt_length (by omega), List.eraseIdx_eq_take_drop_succ,
      List.set_eq_take_append_cons_drop, if_pos (by omega), List.append_assoc]
    apply List.Perm.append_left
    exact (List.perm_append_singleton _ _).symm
  · rw [List.set_eq_of_length_le hlen.le, List.eraseIdx_append_of_length_le hlen.le, hlen,
      Nat.sub_self, List.eraseIdx_zero, List.tail_cons, List.append_nil]

theorem drop_swapRemove (h : count < slots.length) (hi : i ≤ count) :
    (swapRemove blank slots count i).drop count = blank :: slots.drop (count + 1) := by
  rw [swapRemove, List.drop_eq_getElem_cons (by simpa using h), List.getElem_set_self,
    List.drop_set_of_lt (Nat.lt_succ_self count), List.drop_set_of_lt (by omega)]

namespace Packed

/-- Two tables with the same members are the same: their other slots are blank. -/
theorem eq_of_take {slots' : List α} (h : Packed blank slots count) (h' : Packed blank slots' count)
    (hlen : slots.length = slots'.length) (htake : slots.take count = slots'.take count) :
    slots = slots' := by
  rw [← List.take_append_drop count slots, ← List.take_append_drop count slots', htake,
    List.eq_replicate_of_mem h.rest, List.eq_replicate_of_mem h'.rest, List.length_drop,
    List.length_drop, hlen]

theorem nil (n : ℕ) : Packed blank (List.replicate n blank) 0 where
  le := Nat.zero_le _
  nodup := List.nodup_nil
  notMem := List.not_mem_nil
  rest := fun _ hy => List.eq_of_mem_replicate hy

theorem insert (h : Packed blank slots count) (hlt : count < slots.length) (hx : x ≠ blank)
    (hnew : x ∉ slots.take count) : Packed blank (slots.set count x) (count + 1) where
  le := by rwa [List.length_set]
  nodup := by
    rw [take_set_next hlt]
    exact List.nodup_append.mpr ⟨h.nodup, List.nodup_singleton x, fun y hy z hz he =>
      hnew (List.mem_singleton.mp hz ▸ he ▸ hy)⟩
  notMem := by
    rw [take_set_next hlt, List.mem_append, List.mem_singleton]
    rintro (hb | rfl)
    · exact h.notMem hb
    · exact hx rfl
  rest := fun y hy => by
    rw [List.drop_set_of_lt (Nat.lt_succ_self count)] at hy
    refine h.rest y ?_
    rw [List.drop_eq_getElem_cons hlt]
    exact List.mem_cons_of_mem _ hy

theorem remove (h : Packed blank slots (count + 1)) (hi : i ≤ count) :
    Packed blank (swapRemove blank slots count i) count where
  le := by
    have hle := h.le
    rw [swapRemove, List.length_set, List.length_set]
    omega
  nodup := (take_swapRemove h.le hi).nodup_iff.mpr (h.nodup.sublist (List.eraseIdx_sublist _ _))
  notMem := fun hb =>
    h.notMem (List.mem_of_mem_eraseIdx ((take_swapRemove h.le hi).mem_iff.mp hb))
  rest := fun y hy => by
    rw [drop_swapRemove h.le hi, List.mem_cons] at hy
    exact hy.elim id (h.rest y)

variable [DecidableEq α]

/-- The members of the set. -/
def members (slots : List α) (count : ℕ) : Finset α := (slots.take count).toFinset

theorem mem_members : x ∈ members slots count ↔ x ∈ slots.take count := List.mem_toFinset

theorem card_members (h : Packed blank slots count) : (members slots count).card = count := by
  rw [members, List.toFinset_card_of_nodup h.nodup, List.length_take, Nat.min_eq_left h.le]

theorem members_insert (hlt : count < slots.length) :
    members (slots.set count x) (count + 1) = Insert.insert x (members slots count) := by
  ext y
  rw [mem_members, take_set_next hlt, List.mem_append, List.mem_singleton, Finset.mem_insert,
    mem_members, or_comm]

theorem members_remove (h : Packed blank slots (count + 1))
    (hi : i < (slots.take (count + 1)).length) :
    members (swapRemove blank slots count i) count =
      (members slots (count + 1)).erase (slots.take (count + 1))[i] := by
  have hle : i ≤ count := by
    rw [List.length_take] at hi
    omega
  ext y
  rw [mem_members, (take_swapRemove h.le hle).mem_iff, ← h.nodup.erase_getElem i hi,
    h.nodup.mem_erase_iff, Finset.mem_erase, mem_members]

end Packed

end Foundation
