import Mathlib.Data.List.Perm.Basic

/-!
# Counting in lists that change

An element that is found is taken out by `eraseP`, and an element at an index is replaced by `set`.
Both are put in the form in which a count before and a count after stand side by side.
-/

set_option autoImplicit false

namespace OutpostPi.Lib

universe u v

variable {α : Type u} {test : α → Bool} {items : List α}

/-- The element that is found is the one that is erased. -/
theorem perm_cons_eraseP {a : α} (found : items.find? test = some a) :
    items.Perm (a :: items.eraseP test) := by
  induction items with
  | nil => cases found
  | cons item items ih =>
    cases holds : test item with
    | true =>
      rw [List.find?_cons_of_pos holds] at found
      cases found
      rw [List.eraseP_cons_of_pos holds]
    | false =>
      have fails : ¬ test item = true := Bool.eq_false_iff.mp holds
      rw [List.find?_cons_of_neg fails] at found
      rw [List.eraseP_cons_of_neg fails]
      exact ((ih found).cons item).trans (List.Perm.swap _ _ _)

/-- Nothing is erased where nothing is found. -/
theorem eraseP_of_find?_none (absent : items.find? test = none) :
    items.eraseP test = items :=
  List.eraseP_of_forall_not fun a mem => List.find?_eq_none.mp absent a mem

/-- A replaced element is counted as its replacement. -/
theorem countP_set_add {i : Nat} {old new : α} (found : items[i]? = some old) :
    (items.set i new).countP test + (if test old then 1 else 0) =
      items.countP test + if test new then 1 else 0 := by
  induction items generalizing i with
  | nil => cases found
  | cons item items ih =>
    cases i with
    | zero =>
      cases found
      rw [List.set_cons_zero, List.countP_cons, List.countP_cons]
      omega
    | succ i =>
      have rest := ih (i := i) found
      rw [List.set_cons_succ, List.countP_cons, List.countP_cons]
      omega

/-- Elements that share a key are counted once where the keys are distinct. -/
theorem countP_le_one {κ : Type v} {key : α → κ} (distinct : (items.map key).Nodup)
    (shared : ∀ a ∈ items, ∀ b ∈ items, test a = true → test b = true → key a = key b) :
    items.countP test ≤ 1 := by
  induction items with
  | nil => exact Nat.zero_le 1
  | cons item items ih =>
    obtain ⟨apart, distinct⟩ := List.nodup_cons.mp distinct
    have rest := ih distinct fun a memA b memB =>
      shared a (List.mem_cons_of_mem _ memA) b (List.mem_cons_of_mem _ memB)
    by_cases holds : test item = true
    · have none : items.countP test = 0 := by
        apply List.countP_eq_zero.mpr
        intro other mem holds'
        have same := shared item List.mem_cons_self other (List.mem_cons_of_mem _ mem) holds holds'
        exact apart (same ▸ List.mem_map_of_mem mem)
      have counted : (item :: items).countP test = 1 := by
        rw [List.countP_cons_of_pos holds, none]
      exact Nat.le_of_eq counted
    · rw [List.countP_cons_of_neg holds]
      exact rest

/-- An element after a replacement is the new one, or one at another index. -/
theorem getElem?_of_set {i j : Nat} {new a : α} (found : (items.set i new)[j]? = some a) :
    j = i ∧ a = new ∨ j ≠ i ∧ items[j]? = some a := by
  by_cases same : j = i
  · subst same
    left
    rw [List.getElem?_set_self'] at found
    obtain ⟨-, -, rfl⟩ := Option.map_eq_some_iff.mp found
    exact ⟨rfl, rfl⟩
  · rw [List.getElem?_set_ne (Ne.symm same)] at found
    exact Or.inr ⟨same, found⟩

end OutpostPi.Lib
