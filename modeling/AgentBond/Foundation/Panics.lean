import AgentBond.Foundation.ByteLayout
import AgentBond.Foundation.Checked

/-! # Code that may panic

Indexing and slicing out of range panics, and so does copying between buffers of
different lengths. Code written with these is compared with fallible code step
by step: it returns what that returns, and in particular does not panic.
-/

namespace Foundation

/-- Code that returns a result or an error, or panics and returns nothing. -/
abbrev Panicking (ε α : Type) := ExceptT ε Option α

variable {ε α β : Type}

namespace Panicking

/-- Fallible code that never panics. -/
def checked (r : Except ε α) : Panicking ε α := ExceptT.mk (some r)

/-- `xs[i]`. -/
def index (xs : List α) (i : ℕ) : Panicking ε α := ExceptT.mk (xs[i]?.map .ok)

/-- `&xs[start..stop]`. -/
def range (xs : List α) (start stop : ℕ) : Panicking ε (List α) :=
  ExceptT.mk (if start ≤ stop ∧ stop ≤ xs.length then some (.ok ((xs.take stop).drop start))
    else none)

/-- `copy_from_slice` into a buffer of the given length. -/
def copy (n : ℕ) (bytes : List UInt8) : Panicking ε (Bytes n) :=
  ExceptT.mk (if h : bytes.length = n then some (.ok ⟨bytes, h⟩) else none)

/-- The code does not panic, and returns this. -/
def Returns (x : Panicking ε α) (r : Except ε α) : Prop := x.run = some r

variable {x : Panicking ε α} {r : Except ε α}

theorem returns_checked (r : Except ε α) : Returns (checked r) r := rfl

theorem returns_index {xs : List α} {i : ℕ} {a : α} (h : xs[i]? = some a) :
    Returns (index xs i : Panicking ε α) (.ok a) := by
  show xs[i]?.map Except.ok = some (.ok a)
  rw [h, Option.map_some]

theorem returns_range {xs : List α} {start stop : ℕ} (h : start ≤ stop) (h' : stop ≤ xs.length) :
    Returns (range xs start stop : Panicking ε (List α)) (.ok ((xs.take stop).drop start)) :=
  if_pos ⟨h, h'⟩

theorem returns_copy {n : ℕ} (v : Bytes n) :
    Returns (copy n v.toList : Panicking ε (Bytes n)) (.ok v) :=
  dif_pos v.toList_length

theorem Returns.bind {f : α → Panicking ε β} {g : α → Except ε β} (hx : Returns x r)
    (hf : ∀ a, r = .ok a → Returns (f a) (g a)) : Returns (x >>= f) (r >>= g) := by
  have hrun : (x >>= f).run = x.run >>= fun r => ExceptT.bindCont f r := rfl
  rw [Returns, hrun, show x.run = some r from hx]
  cases r with
  | error e => rfl
  | ok a => exact hf a rfl

theorem Returns.bind_ok {f : α → Panicking ε β} {r' : Except ε β} {a : α} (hx : Returns x (.ok a))
    (hf : Returns (f a) r') : Returns (x >>= f) r' :=
  hx.bind (g := fun _ => r') fun _ hb => Except.ok.inj hb ▸ hf

end Panicking

/-- `get(start..stop)`, with the number of elements instead of the end. -/
def getRange (xs : List α) (start len : ℕ) : Option (List α) :=
  if start + len ≤ xs.length then some ((xs.drop start).take len) else none

theorem getRange_eq {data : List UInt8} {start n : ℕ} (hn : 0 < n) :
    getRange data start n = (slice data start n).map List.Vector.toList := by
  unfold getRange slice
  have hlen : ((data.drop start).take n).length = n ↔ start + n ≤ data.length := by
    simp only [List.length_take, List.length_drop]
    omega
  split
  · rename_i h
    rw [dif_pos (hlen.mpr h)]
    rfl
  · rename_i h
    rw [dif_neg (mt hlen.mp h)]
    rfl

end Foundation
