import OutpostPi.Lib.Map

/-!
# Maps to sets without empty entries

A `MultiMap κ ν` sends a key to a duplicate-free list of values and keeps no key whose list is
empty, so the keys it retains are exactly those with an edge. The operations add or remove one
edge, or one value at a list of keys. Each has a membership law: `mem_insertEdge`,
`mem_eraseEdge`, `mem_insertEdges` and `mem_eraseEdges`.
-/

set_option autoImplicit false

namespace OutpostPi.Lib

universe u v

/-- A map from keys to nonempty duplicate-free lists. -/
structure MultiMap (κ : Type u) (ν : Type v) [DecidableEq κ] where
  sets : Map κ (List ν)
  nonempty : ∀ k values, sets.lookup k = some values → values ≠ []
  nodup : ∀ k values, sets.lookup k = some values → values.Nodup

namespace MultiMap

variable {κ : Type u} {ν : Type v} [DecidableEq κ]

/-- The map with no edges. -/
def empty : MultiMap κ ν := ⟨∅, by simp, by simp⟩

/-- The values at a key. -/
def get (m : MultiMap κ ν) (k : κ) : List ν := (m.sets.lookup k).getD []

theorem nodup_get (m : MultiMap κ ν) (k : κ) : (m.get k).Nodup := by
  rw [get]
  cases found : m.sets.lookup k with
  | none => exact List.nodup_nil
  | some values => exact m.nodup k values found

@[simp] theorem get_empty (k : κ) : (empty : MultiMap κ ν).get k = [] := rfl

/-- Replace the values at a key, dropping the key when no value is left. -/
def put (m : MultiMap κ ν) (k : κ) (values : List ν) (distinct : values.Nodup) :
    MultiMap κ ν :=
  if none : values = [] then
    { sets := m.sets.erase k
      nonempty := by
        intro k' values' found
        by_cases same : k' = k
        · subst same
          simp at found
        · rw [AList.lookup_erase_ne same] at found
          exact m.nonempty k' values' found
      nodup := by
        intro k' values' found
        by_cases same : k' = k
        · subst same
          simp at found
        · rw [AList.lookup_erase_ne same] at found
          exact m.nodup k' values' found }
  else
    { sets := m.sets.insert k values
      nonempty := by
        intro k' values' found
        by_cases same : k' = k
        · subst same
          rw [AList.lookup_insert, Option.some.injEq] at found
          exact found ▸ none
        · rw [AList.lookup_insert_ne same] at found
          exact m.nonempty k' values' found
      nodup := by
        intro k' values' found
        by_cases same : k' = k
        · subst same
          rw [AList.lookup_insert, Option.some.injEq] at found
          exact found ▸ distinct
        · rw [AList.lookup_insert_ne same] at found
          exact m.nodup k' values' found }

theorem get_put (m : MultiMap κ ν) (k k' : κ) (values : List ν) (distinct : values.Nodup) :
    (m.put k values distinct).get k' = if k' = k then values else m.get k' := by
  rw [put]
  by_cases same : k' = k
  · subst same
    split
    · next none => simp [get, none]
    · simp [get]
  · split
    · simp [get, AList.lookup_erase_ne same]
    · simp [get, AList.lookup_insert_ne same]

/-- What a key maps to after the values at a key are replaced. -/
theorem lookup_put (m : MultiMap κ ν) (k k' : κ) (values : List ν) (distinct : values.Nodup) :
    (m.put k values distinct).sets.lookup k' =
      if k' = k then (if values = [] then none else some values) else m.sets.lookup k' := by
  rw [put]
  by_cases same : k' = k
  · subst same
    split
    · simp
    · simp
  · rw [if_neg same]
    split
    · simp [AList.lookup_erase_ne same]
    · simp [AList.lookup_insert_ne same]

variable [DecidableEq ν]

/-- Add one edge. -/
def insertEdge (m : MultiMap κ ν) (k : κ) (value : ν) : MultiMap κ ν :=
  m.put k ((m.get k).insert value) (m.nodup_get k).insert

/-- Remove one edge. -/
def eraseEdge (m : MultiMap κ ν) (k : κ) (value : ν) : MultiMap κ ν :=
  m.put k ((m.get k).erase value) ((m.nodup_get k).erase value)

/-- Add a value at each key of a list. -/
def insertEdges (m : MultiMap κ ν) (keys : List κ) (value : ν) : MultiMap κ ν :=
  keys.foldl (fun acc k => acc.insertEdge k value) m

/-- Remove a value at each key of a list. -/
def eraseEdges (m : MultiMap κ ν) (keys : List κ) (value : ν) : MultiMap κ ν :=
  keys.foldl (fun acc k => acc.eraseEdge k value) m

/-! ## Membership laws -/

variable {m : MultiMap κ ν} {value value' : ν}

theorem mem_insertEdge {k k' : κ} :
    value' ∈ (m.insertEdge k value).get k' ↔ (k' = k ∧ value' = value) ∨ value' ∈ m.get k' := by
  rw [insertEdge, get_put]
  by_cases same : k' = k
  · subst same
    simp [List.mem_insert_iff]
  · simp [same]

theorem mem_eraseEdge {k k' : κ} :
    value' ∈ (m.eraseEdge k value).get k' ↔ value' ∈ m.get k' ∧ ¬ (k' = k ∧ value' = value) := by
  rw [eraseEdge, get_put]
  by_cases same : k' = k
  · subst same
    simp [(m.nodup_get k').mem_erase_iff, and_comm]
  · simp [same]

theorem mem_insertEdges {keys : List κ} {k' : κ} :
    value' ∈ (m.insertEdges keys value).get k' ↔
      (k' ∈ keys ∧ value' = value) ∨ value' ∈ m.get k' := by
  induction keys generalizing m with
  | nil => simp [insertEdges]
  | cons k keys ih =>
    have unfolded :
        m.insertEdges (k :: keys) value = (m.insertEdge k value).insertEdges keys value := rfl
    rw [unfolded, ih, mem_insertEdge, List.mem_cons]
    tauto

theorem mem_eraseEdges {keys : List κ} {k' : κ} :
    value' ∈ (m.eraseEdges keys value).get k' ↔
      value' ∈ m.get k' ∧ ¬ (k' ∈ keys ∧ value' = value) := by
  induction keys generalizing m with
  | nil => simp [eraseEdges]
  | cons k keys ih =>
    have unfolded :
        m.eraseEdges (k :: keys) value = (m.eraseEdge k value).eraseEdges keys value := rfl
    rw [unfolded, ih, mem_eraseEdge, List.mem_cons]
    tauto

end MultiMap

end OutpostPi.Lib
