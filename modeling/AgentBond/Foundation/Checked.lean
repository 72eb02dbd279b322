import Mathlib.Algebra.Group.Int.Defs
import Mathlib.Algebra.Group.Nat.Defs
import Mathlib.Data.Nat.Notation

/-! # Guards and checked arithmetic

Fallible code is read in `Except`. A guard succeeds exactly when its condition
holds, a sequence succeeds exactly when both halves do, and the checked
operations on machine words return the exact result or nothing.
-/

namespace Foundation

variable {ε : Type*} {α β : Type}

/-- Continue when the condition holds and fail with the given error otherwise. -/
def ensure (p : Prop) [Decidable p] (e : ε) : Except ε Unit :=
  if p then .ok () else .error e

/-- Take the value of an option, or fail with the given error. -/
def okOr (o : Option α) (e : ε) : Except ε α :=
  match o with
  | some a => .ok a
  | none => .error e

@[simp] theorem ensure_eq_ok {p : Prop} [Decidable p] {e : ε} {v : Unit} :
    ensure p e = .ok v ↔ p := by
  unfold ensure
  split <;> simp [*]

@[simp] theorem okOr_eq_ok {o : Option α} {e : ε} {a : α} : okOr o e = .ok a ↔ o = some a := by
  cases o <;> simp [okOr]

@[simp] theorem bind_eq_ok {x : Except ε α} {f : α → Except ε β} {b : β} :
    x >>= f = .ok b ↔ ∃ a, x = .ok a ∧ f a = .ok b := by
  cases x <;> simp [bind, Except.bind]

theorem ok_bind {a : α} {f : α → Except ε β} : (Except.ok a >>= f) = f a :=
  rfl

theorem eq_ok_of_isOk {x : Except ε α} {a : α} (h : x.isOk = true) :
    x = .ok (x.toOption.getD a) := by
  cases x with
  | error e => cases h
  | ok a => rfl

theorem ensure_true {e : ε} : ensure True e = .ok () :=
  rfl

@[simp] theorem discard_eq_ok {x : Except ε α} {u : PUnit} :
    (discard x : Except ε PUnit) = .ok u ↔ ∃ a, x = .ok a := by
  cases x <;> simp [discard, Functor.mapConst, Except.map]

theorem ensure_bind_eq_ok {p : Prop} [Decidable p] {e : ε} {f : Unit → Except ε α} {a : α} :
    ensure p e >>= f = .ok a ↔ p ∧ f () = .ok a := by
  rw [bind_eq_ok]
  constructor
  · rintro ⟨⟨⟩, hp, hf⟩; exact ⟨ensure_eq_ok.mp hp, hf⟩
  · rintro ⟨hp, hf⟩; exact ⟨(), ensure_eq_ok.mpr hp, hf⟩

theorem ite_error_eq_ok {p : Prop} [Decidable p] {x : Except ε α} {e : ε} {a : α} :
    (if p then x else .error e) = .ok a ↔ p ∧ x = .ok a := by
  by_cases hp : p <;> simp [hp]

/-- Unsigned addition that fails on overflow. -/
def checkedAdd (a b : UInt64) : Option UInt64 :=
  if a.toNat + b.toNat < 2 ^ 64 then some (a + b) else none

/-- Unsigned subtraction that fails on underflow. -/
def checkedSub (a b : UInt64) : Option UInt64 :=
  if b ≤ a then some (a - b) else none

/-- Signed addition that fails on overflow in either direction. -/
def checkedAddI64 (a b : Int64) : Option Int64 :=
  if -2 ^ 63 ≤ a.toInt + b.toInt ∧ a.toInt + b.toInt < 2 ^ 63 then some (a + b) else none

theorem toNat_of_checkedAdd {a b c : UInt64} (h : checkedAdd a b = some c) :
    c.toNat = a.toNat + b.toNat := by
  unfold checkedAdd at h
  split at h
  · obtain rfl := Option.some.inj h
    rw [UInt64.toNat_add, Nat.mod_eq_of_lt ‹_›]
  · cases h

theorem toNat_of_checkedSub {a b c : UInt64} (h : checkedSub a b = some c) :
    b.toNat ≤ a.toNat ∧ c.toNat = a.toNat - b.toNat := by
  unfold checkedSub at h
  split at h
  · rename_i hle
    obtain rfl := Option.some.inj h
    exact ⟨UInt64.le_iff_toNat_le.mp hle, UInt64.toNat_sub_of_le _ _ hle⟩
  · cases h

theorem toInt_le_of_checkedAddI64 {a b sum : Int64} (h : checkedAddI64 a b = some sum)
    (hb : 0 ≤ b) : a ≤ sum := by
  unfold checkedAddI64 at h
  split at h
  · rename_i hfits
    obtain rfl := Option.some.inj h
    have hnonneg := Int64.le_iff_toInt_le.mp hb
    rw [Int64.le_iff_toInt_le, Int64.toInt_add, Int.bmod_eq_of_le (by omega) (by omega)]
    exact Int.le_add_of_nonneg_right hnonneg
  · cases h

end Foundation
