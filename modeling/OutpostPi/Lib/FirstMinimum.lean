import Mathlib.Data.List.MinMax
import Mathlib.Data.List.Nodup
import Mathlib.Order.Defs.LinearOrder

/-!
# The first element of lowest rank

`List.argmin` is the loop that goes through a list and keeps an element until a lower one comes. Of
several that are lowest it returns the one that stands first (`pair_sublist_of_argmin`), and in a
list without repetition this is how it is recognized (`argmin_of_pairs`).
-/

set_option autoImplicit false

namespace OutpostPi.Lib

universe u v

variable {α : Type u} {β : Type v} [LinearOrder β] {rank : α → β} {items : List α} {first : α}

/-- The element that is returned stands before the others of its rank. -/
theorem pair_sublist_of_argmin (lowest : items.argmin rank = some first) {other : α}
    (mem : other ∈ items) (ne : other ≠ first) (same : rank other = rank first) :
    [first, other].Sublist items := by
  induction items with
  | nil => cases mem
  | cons a rest ih =>
    rw [List.argmin_cons] at lowest
    cases later : rest.argmin rank with
    | none =>
      -- the list has one element only
      rw [List.argmin_eq_none.mp later] at mem
      rw [later] at lowest
      cases lowest
      exact absurd (List.mem_singleton.mp mem) ne
    | some best =>
      rw [later] at lowest
      dsimp only at lowest
      split at lowest
      · next lower =>
        cases lowest
        rcases List.mem_cons.mp mem with rfl | mem
        · exact absurd same (ne_of_gt lower)
        · exact (ih later mem).cons a
      · cases lowest
        rcases List.mem_cons.mp mem with rfl | mem
        · exact absurd rfl ne
        · exact (List.singleton_sublist.mpr mem).cons_cons _

omit [LinearOrder β] in
/-- Of two elements of a list without repetition, one stands before the other. -/
theorem not_pair_sublist {a b : α} (distinct : items.Nodup) (one : [a, b].Sublist items) :
    ¬ [b, a].Sublist items := by
  induction items with
  | nil => cases one
  | cons c rest ih =>
    obtain ⟨fresh, distinct⟩ := List.nodup_cons.mp distinct
    intro two
    cases one with
    | cons _ one =>
      cases two with
      | cons _ two => exact ih distinct one two
      | cons_cons _ two => exact fresh (one.subset (List.mem_cons_of_mem _ List.mem_cons_self))
    | cons_cons _ one =>
      cases two with
      | cons _ two => exact fresh (two.subset (List.mem_cons_of_mem _ List.mem_cons_self))
      | cons_cons _ two => exact fresh (List.singleton_sublist.mp one)

/-- In a list without repetition, the element that no other one is below, and that stands before
the others of its rank, is the one that is returned. -/
theorem argmin_of_pairs (distinct : items.Nodup) (mem : first ∈ items)
    (below : ∀ other ∈ items, rank first ≤ rank other)
    (before : ∀ other ∈ items, other ≠ first → rank other = rank first →
      [first, other].Sublist items) : items.argmin rank = some first := by
  cases lowest : items.argmin rank with
  | none =>
    rw [List.argmin_eq_none.mp lowest] at mem
    cases mem
  | some best =>
    by_cases ne : best = first
    · rw [ne]
    · have found := List.argmin_mem lowest
      have same : rank best = rank first :=
        le_antisymm (List.le_of_mem_argmin mem lowest) (below best found)
      -- each of the two would stand before the other
      have one := pair_sublist_of_argmin lowest mem (Ne.symm ne) same.symm
      have two := before best found ne same
      exact absurd two (not_pair_sublist distinct one)

end OutpostPi.Lib
