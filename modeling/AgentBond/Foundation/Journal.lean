import Mathlib.Logic.Function.Basic
import Mathlib.Data.List.Basic

/-! # Journals

A finite map with a default, kept as the journal of its writes. Reading returns
the latest write, so a journal can be compared and evaluated, while proofs see
it as a function that is updated.
-/

namespace Foundation

structure Journal (κ ν : Type) where
  entries : List (κ × ν)
  deriving DecidableEq

namespace Journal

variable {κ ν : Type} [DecidableEq κ]

/-- The latest value written at the key. -/
def get (d : ν) (j : Journal κ ν) (k : κ) : ν := (j.entries.lookup k).getD d

def set (j : Journal κ ν) (k : κ) (v : ν) : Journal κ ν := ⟨(k, v) :: j.entries⟩

theorem get_set (d : ν) (j : Journal κ ν) (k : κ) (v : ν) :
    (j.set k v).get d = Function.update (j.get d) k v := by
  funext i
  by_cases h : i = k
  · subst h; simp [get, set]
  · have hb : (i == k) = false := beq_false_of_ne h
    simp [get, set, List.lookup_cons, h, hb]

@[simp] theorem get_set_self (d : ν) (j : Journal κ ν) (k : κ) (v : ν) :
    (j.set k v).get d k = v := by
  rw [get_set, Function.update_self]

theorem get_set_of_ne (d : ν) (j : Journal κ ν) {k i : κ} (v : ν) (h : i ≠ k) :
    (j.set k v).get d i = j.get d i := by
  rw [get_set, Function.update_of_ne h]

end Journal

end Foundation
