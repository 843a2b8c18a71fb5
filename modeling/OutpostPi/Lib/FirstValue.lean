import OutpostPi.Lib.OrderedMap

/-!
# The first value of a key

Entries that name a key, with or without a value, are noted in a map one after the other. The first
value that comes with a key stays, and a key that comes without one is kept for a later value.
`get?_noteAll` says what a list of entries leaves, and `mem_noteAll` which entries the map has then.
-/

set_option autoImplicit false

namespace OutpostPi.Lib

universe u v

variable {κ : Type u} {ν : Type v} [DecidableEq κ]

/-- The first value that stands beside a key. -/
def firstValue : List (κ × Option ν) → κ → Option ν
  | [], _ => none
  | entry :: rest, key =>
    if entry.1 = key then entry.2.or (firstValue rest key) else firstValue rest key

variable {entries : List (κ × Option ν)}

theorem firstValue_of_not_mem {key : κ} (unnamed : key ∉ entries.map Prod.fst) :
    firstValue entries key = none := by
  induction entries with
  | nil => rfl
  | cons entry rest ih =>
    rw [List.map_cons, List.mem_cons, not_or] at unnamed
    rw [firstValue, if_neg (Ne.symm unnamed.1), ih unnamed.2]

theorem firstValue_append (first second : List (κ × Option ν)) (key : κ) :
    firstValue (first ++ second) key = (firstValue first key).or (firstValue second key) := by
  induction first with
  | nil => rfl
  | cons entry rest ih =>
    rw [List.cons_append, firstValue, firstValue, ih]
    split
    · exact Option.or_assoc.symm
    · rfl

/-- There is a value when some entry of the key has one. -/
theorem isSome_firstValue {key : κ} :
    (firstValue entries key).isSome ↔ ∃ entry ∈ entries, entry.1 = key ∧ entry.2.isSome := by
  induction entries with
  | nil => simp [firstValue]
  | cons entry rest ih =>
    rw [firstValue, List.exists_mem_cons_iff, ← ih]
    split
    · next same => simp [same]
    · next differs => simp [differs]

section Items

variable {α : Type*} {value : α → Option ν}

/-- Two keys that mark the same items of a list have the same first value. -/
theorem firstValue_map_congr {κ' : Type*} [DecidableEq κ'] {f : α → κ} {g : α → κ'} {k : κ}
    {k' : κ'} {items : List α} (same : ∀ item ∈ items, f item = k ↔ g item = k') :
    firstValue (items.map fun item => (f item, value item)) k =
      firstValue (items.map fun item => (g item, value item)) k' := by
  induction items with
  | nil => rfl
  | cons item rest ih =>
    have later := ih fun other mem => same other (List.mem_cons_of_mem _ mem)
    have first := same item List.mem_cons_self
    rw [List.map_cons, List.map_cons, firstValue, firstValue, later]
    simp only [first]

/-- Items that do not have a key are dropped without effect on its first value. -/
theorem firstValue_map_filter {f : α → κ} {k : κ} {items : List α} {keep : α → Bool}
    (kept : ∀ item ∈ items, f item = k → keep item = true) :
    firstValue ((items.filter keep).map fun item => (f item, value item)) k =
      firstValue (items.map fun item => (f item, value item)) k := by
  induction items with
  | nil => rfl
  | cons item rest ih =>
    have later := ih fun other mem => kept other (List.mem_cons_of_mem _ mem)
    by_cases keeps : keep item = true
    · rw [List.filter_cons_of_pos keeps, List.map_cons, List.map_cons, firstValue, firstValue,
        later]
    · have differs : f item ≠ k := fun same => keeps (kept item List.mem_cons_self same)
      rw [List.filter_cons_of_neg keeps, List.map_cons, firstValue, if_neg differs, later]

end Items

namespace OrderedMap

/-- Note a key, with its value where it comes with one. -/
def note (m : OrderedMap κ (Option ν)) (key : κ) (value : Option ν) : OrderedMap κ (Option ν) :=
  match m.get? key with
  | some (some _) => m
  | some none =>
    match value with
    | some value => m.set key (some value)
    | none => m
  | none => m.set key value

/-- The notes of a list of entries. -/
def noteAll (entries : List (κ × Option ν)) (m : OrderedMap κ (Option ν)) :
    OrderedMap κ (Option ν) :=
  entries.foldl (fun m entry => m.note entry.1 entry.2) m

theorem noteAll_append (first second : List (κ × Option ν))
    (m : OrderedMap κ (Option ν)) :
    noteAll (first ++ second) m = noteAll second (noteAll first m) :=
  List.foldl_append

theorem get?_note_self (m : OrderedMap κ (Option ν)) (key : κ) (value : Option ν) :
    (m.note key value).get? key = some ((m.get? key).join.or value) := by
  unfold note
  split
  · next found => simp [found]
  · next found =>
    split
    · simp [found, get?_set_self]
    · simp [found]
  · next absent => simp [absent, get?_set_self]

theorem get?_note_of_ne {m : OrderedMap κ (Option ν)} {key other : κ} (differs : other ≠ key)
    (value : Option ν) : (m.note key value).get? other = m.get? other := by
  unfold note
  split
  · rfl
  · split
    · exact get?_set_of_ne differs _
    · rfl
  · exact get?_set_of_ne differs _

/-- A key that is named has the value that it had, or else the first one in the list. -/
theorem get?_noteAll (entries : List (κ × Option ν)) (m : OrderedMap κ (Option ν)) (key : κ) :
    (noteAll entries m).get? key =
      if key ∈ entries.map Prod.fst then some ((m.get? key).join.or (firstValue entries key))
      else m.get? key := by
  induction entries generalizing m with
  | nil => simp [noteAll]
  | cons entry rest ih =>
    rw [noteAll, List.foldl_cons]
    refine (ih _).trans ?_
    by_cases same : entry.1 = key
    · subst same
      have named : entry.1 ∈ (entry :: rest).map Prod.fst := List.mem_cons_self
      rw [if_pos named, get?_note_self, firstValue, if_pos rfl, Option.join_some, ← Option.or_assoc]
      split
      · rfl
      · next last => rw [firstValue_of_not_mem last, Option.or_none]
    · have skipped : key ∈ (entry :: rest).map Prod.fst ↔ key ∈ rest.map Prod.fst := by
        simp [Ne.symm same]
      rw [get?_note_of_ne (Ne.symm same), firstValue, if_neg same]
      simp only [skipped]

theorem get?_noteAll_empty {key : κ} {value : Option ν} :
    (noteAll entries empty).get? key = some value ↔
      key ∈ entries.map Prod.fst ∧ value = firstValue entries key := by
  have nothing : (empty : OrderedMap κ (Option ν)).get? key = none := rfl
  rw [get?_noteAll, nothing]
  split
  · next named => simp [named, eq_comm]
  · next unnamed => simp [unnamed]

/-- The notes of a list: every key that it names, with its first value. -/
theorem mem_noteAll {entry : κ × Option ν} :
    entry ∈ (noteAll entries empty).entries ↔
      entry.1 ∈ entries.map Prod.fst ∧ entry.2 = firstValue entries entry.1 := by
  rw [← get?_noteAll_empty]
  exact get?_eq_some_iff.symm

end OrderedMap

end OutpostPi.Lib
