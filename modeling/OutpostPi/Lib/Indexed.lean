import Mathlib.Data.List.Nodup

/-!
# Values at indexes

A list of pairs of an index and a value, as a map from positions of another list. Where the
indexes increase, reading the values of a range of indexes in order gives the list back
(`flatMap_valueAt`).

The last section says what a position holds after one item of a list is replaced or a further one
is added.
-/

set_option autoImplicit false

namespace OutpostPi.Lib

universe u

variable {α : Type u} {entries : List (Nat × α)} {index : Nat} {value : α}

/-- The value of an index. -/
def valueAt (entries : List (Nat × α)) (index : Nat) : Option α :=
  (entries.find? fun entry => entry.1 = index).map Prod.snd

/-- The indexes of a numbered list increase. -/
theorem pairwise_zipIdx (items : List α) (k : Nat) :
    (items.zipIdx k).Pairwise fun a b => a.2 < b.2 := by
  have indexes : ((items.zipIdx k).map Prod.snd).Pairwise (· < ·) := by
    rw [List.zipIdx_map_snd]
    exact List.pairwise_lt_range'
  exact List.pairwise_map.mp indexes

theorem valueAt_eq_none_iff : valueAt entries index = none ↔ index ∉ entries.map Prod.fst := by
  rw [valueAt, Option.map_eq_none_iff, List.find?_eq_none]
  constructor
  · intro absent mem
    obtain ⟨entry, here, same⟩ := List.mem_map.mp mem
    exact absent entry here (decide_eq_true same)
  · intro absent entry here same
    exact absent (List.mem_map.mpr ⟨entry, here, of_decide_eq_true same⟩)

theorem mem_of_valueAt (found : valueAt entries index = some value) :
    (index, value) ∈ entries := by
  obtain ⟨entry, here, rfl⟩ := Option.map_eq_some_iff.mp found
  have same : entry.1 = index := by simpa using List.find?_some here
  subst same
  exact List.mem_of_find?_eq_some here

/-- Where the indexes increase, a pair is the one that is found. -/
theorem valueAt_of_mem (increasing : entries.Pairwise fun a b => a.1 < b.1)
    (mem : (index, value) ∈ entries) : valueAt entries index = some value := by
  induction entries with
  | nil => cases mem
  | cons entry rest ih =>
    obtain ⟨before, increasing⟩ := List.pairwise_cons.mp increasing
    rcases List.mem_cons.mp mem with rfl | later
    · simp [valueAt]
    · have differs : entry.1 ≠ index := Nat.ne_of_lt (before _ later)
      rw [valueAt, List.find?_cons_of_neg (by simpa using differs)]
      exact ih increasing later

theorem valueAt_cons_self {rest : List (Nat × α)} :
    valueAt ((index, value) :: rest) index = some value := by
  simp [valueAt]

theorem valueAt_cons_of_ne {entry : Nat × α} {rest : List (Nat × α)} (differs : entry.1 ≠ index) :
    valueAt (entry :: rest) index = valueAt rest index := by
  rw [valueAt, List.find?_cons_of_neg (by simpa using differs)]
  rfl

/-- Reading a range of indexes in order gives the pairs back. -/
theorem flatMap_valueAt {k n : Nat} (increasing : entries.Pairwise fun a b => a.1 < b.1)
    (bounded : ∀ entry ∈ entries, k ≤ entry.1 ∧ entry.1 < k + n) :
    (List.range' k n).flatMap (fun i => (valueAt entries i).toList.map (Prod.mk i)) = entries := by
  induction n generalizing k entries with
  | zero =>
    cases entries with
    | nil => rfl
    | cons entry rest =>
      have within := bounded entry List.mem_cons_self
      omega
  | succ n ih =>
    rw [List.range'_succ, List.flatMap_cons]
    -- The first index is that of the first pair, or of none.
    by_cases here : k ∈ entries.map Prod.fst
    · cases entries with
      | nil => cases here
      | cons entry rest =>
        obtain ⟨before, increasing⟩ := List.pairwise_cons.mp increasing
        have first : entry.1 = k := by
          rcases List.mem_cons.mp here with same | later
          · exact same.symm
          · obtain ⟨other, mem, same⟩ := List.mem_map.mp later
            have after := before other mem
            have within := (bounded entry List.mem_cons_self).1
            omega
        have later : ∀ other ∈ rest, k + 1 ≤ other.1 ∧ other.1 < k + 1 + n := by
          intro other mem
          have after := before other mem
          have within := bounded other (List.mem_cons_of_mem entry mem)
          omega
        have rest_eq : (List.range' (k + 1) n).flatMap
            (fun i => (valueAt (entry :: rest) i).toList.map (Prod.mk i)) =
            (List.range' (k + 1) n).flatMap
              (fun i => (valueAt rest i).toList.map (Prod.mk i)) := by
          apply List.flatMap_congr
          intro i mem
          have above := (List.mem_range'_1.mp mem).1
          rw [valueAt_cons_of_ne (by omega)]
        rw [rest_eq, ih increasing later]
        obtain ⟨i, a⟩ := entry
        subst first
        rw [valueAt_cons_self]
        rfl
    · rw [valueAt_eq_none_iff.mpr here, ih increasing]
      · rfl
      · intro entry mem
        have within := bounded entry mem
        have differs : entry.1 ≠ k := fun same => here (List.mem_map.mpr ⟨entry, mem, same⟩)
        omega

section Positions

variable {items : List α} {i j : Nat} {new found : α}

/-- Replacing one item leaves the others as they were. -/
theorem of_getElem?_set (here : (items.set i new)[j]? = some found) :
    j = i ∧ found = new ∨ j ≠ i ∧ items[j]? = some found := by
  rw [List.getElem?_set] at here
  split at here
  · next same =>
    subst same
    split at here
    · cases here
      exact Or.inl ⟨rfl, rfl⟩
    · cases here
  · next distinct => exact Or.inr ⟨Ne.symm distinct, here⟩

theorem getElem?_set_of_some (here : items[i]? = some found) :
    (items.set i new)[i]? = some new :=
  List.getElem?_set_self (List.getElem?_eq_some_iff.mp here).1

/-- A further item leaves the others as they were. -/
theorem of_getElem?_concat (here : (items ++ [new])[j]? = some found) :
    j = items.length ∧ found = new ∨ j < items.length ∧ items[j]? = some found := by
  rcases Nat.lt_trichotomy j items.length with before | rfl | after
  · rw [List.getElem?_append_left before] at here
    exact Or.inr ⟨before, here⟩
  · rw [List.getElem?_concat_length] at here
    cases here
    exact Or.inl ⟨rfl, rfl⟩
  · rw [List.getElem?_eq_none (by simp; omega)] at here
    cases here

end Positions

end OutpostPi.Lib
