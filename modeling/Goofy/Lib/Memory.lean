import Mathlib.Tactic.Common

/-!
# A block of memory

A block of `size` cells, with fields that are read and written at an offset.  A
field that is written reads back, and fields that do not overlap are independent.
-/

namespace Memory

variable {α : Type*} {size n m : Nat}

/-- The `n` cells from the offset on. -/
def fetch (mem : Vector α size) (off n : Nat) (h : off + n ≤ size) : Vector α n :=
  Vector.ofFn fun i => mem[off + i.val]

/-- The memory after the cells from the offset on are written. -/
def store (mem : Vector α size) (off : Nat) (field : Vector α n) : Vector α size :=
  Vector.ofFn fun i =>
    if h : off ≤ i.val ∧ i.val < off + n then
      field[i.val - off]
    else
      mem[i.val]

@[simp]
theorem fetch_store_self
    (mem : Vector α size) (off : Nat) (field : Vector α n) (h : off + n ≤ size) :
    fetch (store mem off field) off n h = field := by
  ext i hi
  simp [fetch, store]

theorem fetch_store_of_disjoint
    (mem : Vector α size) {off off' : Nat} (field : Vector α n)
    (h : off' + m ≤ size) (hdisjoint : off' + m ≤ off ∨ off + n ≤ off') :
    fetch (store mem off field) off' m h = fetch mem off' m h := by
  ext i hi
  have hout : ¬ (off ≤ off' + i ∧ off' + i < off + n) := by
    omega
  simp [fetch, store, hout]

end Memory
