import Mathlib.Data.List.Basic

/-!
# Late owners in front of their first references

In a list some elements own a key, and some refer to one. Where the first owner of a key stands
behind the first reference to it, `anchorLate` moves that owner in front of that reference and
drops its other occurrences.
-/

set_option autoImplicit false

namespace OutpostPi.Lib

universe u v

variable {α : Type u} {κ : Type v} [DecidableEq κ]

variable (owns refersTo : α → Option κ)

/-- The place of the first owner of a key. -/
def firstOwner (items : List α) (key : κ) : Option Nat :=
  items.findIdx? fun item => owns item = some key

/-- The place of the first reference to a key. -/
def firstReference (items : List α) (key : κ) : Option Nat :=
  items.findIdx? fun item => refersTo item = some key

/-- The place of the first reference, if the owner stands behind it. -/
def lateReference (items : List α) (key : κ) : Option Nat :=
  match firstOwner owns items key, firstReference refersTo items key with
  | some owner, some reference => if reference < owner then some reference else none
  | _, _ => none

/-- The late owner that belongs in front of the element at a place. -/
def lateOwnerAt (items : List α) (item : α) (place : Nat) : Option α :=
  (refersTo item).bind fun key =>
    if lateReference owns refersTo items key = some place then
      (firstOwner owns items key).bind (items[·]?)
    else none

/-- The element owns a key whose first owner is late. -/
def isLate (items : List α) (item : α) : Bool :=
  (owns item).any fun key => (lateReference owns refersTo items key).isSome

/-- Move the late owners. -/
def anchorLate (items : List α) : List α :=
  items.zipIdx.flatMap fun entry =>
    (lateOwnerAt owns refersTo items entry.1 entry.2).toList ++
      if isLate owns refersTo items entry.1 then [] else [entry.1]

end OutpostPi.Lib
