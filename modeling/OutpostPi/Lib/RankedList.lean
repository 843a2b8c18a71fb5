import Mathlib.Data.List.InsertIdx

/-!
# Insertion by a binary search

`partitionPoint` is the loop of a binary search for the place from which on the elements of a list
fail a test, and `insertSearched` inserts an element there.
-/

set_option autoImplicit false

namespace OutpostPi.Lib

universe u

variable {α : Type u}

/-- Halve the interval from `low` to `high` until it is empty. -/
def partitionPoint (keep : α → Bool) (items : List α) : Nat → Nat → Nat → Nat
  | 0, low, _ => low
  | fuel + 1, low, high =>
    if low < high then
      if items[(low + high) / 2]?.any keep then
        partitionPoint keep items fuel ((low + high) / 2 + 1) high
      else partitionPoint keep items fuel low ((low + high) / 2)
    else low

/-- Insert an element behind those that satisfy the test. -/
def insertSearched (keep : α → Bool) (items : List α) (item : α) : List α :=
  items.insertIdx (partitionPoint keep items items.length 0 items.length) item

end OutpostPi.Lib
