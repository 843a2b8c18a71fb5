import OutpostPi.Lib.KeepFirst
import Mathlib.Data.List.Nodup
import Mathlib.Data.List.Sort

/-!
# Maps and sets in insertion order

`OrderedMap κ ν` keeps its entries in the order in which their keys were first set. Setting a
key that is present replaces the value where it stands, and setting a new key appends it, so
that `values` is the iteration order of the maps of JavaScript and Dart.
`OrderedSet` is the set of that kind. Both carry the distinctness of their keys as a field.
-/

set_option autoImplicit false

namespace OutpostPi.Lib

universe u v

/-- A map whose entries stand in the order of their first insertion. -/
structure OrderedMap (κ : Type u) (ν : Type v) where
  /-- The entries, oldest key first. -/
  entries : List (κ × ν)
  /-- No key occurs twice. -/
  distinct : (entries.map Prod.fst).Nodup

namespace OrderedMap

variable {κ : Type u} {ν : Type v} [DecidableEq κ]

/-- Replace the value of a key where it stands, or append it. -/
def place (key : κ) (value : ν) : List (κ × ν) → List (κ × ν)
  | [] => [(key, value)]
  | entry :: entries =>
    if entry.1 = key then (key, value) :: entries else entry :: place key value entries

variable {key : κ} {value : ν} {entries : List (κ × ν)}

theorem place_of_not_mem (fresh : key ∉ entries.map Prod.fst) :
    place key value entries = entries ++ [(key, value)] := by
  induction entries with
  | nil => rfl
  | cons entry entries ih =>
    rw [List.map_cons, List.mem_cons, not_or] at fresh
    rw [place, if_neg (Ne.symm fresh.1), ih fresh.2, List.cons_append]

/-- A present key keeps its place. -/
theorem keys_place_of_mem (present : key ∈ entries.map Prod.fst) :
    (place key value entries).map Prod.fst = entries.map Prod.fst := by
  induction entries with
  | nil => cases present
  | cons entry entries ih =>
    rw [place]
    split
    · next same => rw [List.map_cons, List.map_cons, same]
    · next differs =>
      rw [List.map_cons, List.mem_cons] at present
      rw [List.map_cons, List.map_cons, ih (present.resolve_left (Ne.symm differs))]

/-- Setting a key to the value that it has changes nothing. -/
theorem place_of_mem (distinct : (entries.map Prod.fst).Nodup) (present : (key, value) ∈ entries) :
    place key value entries = entries := by
  induction entries with
  | nil => cases present
  | cons entry entries ih =>
    rw [List.map_cons, List.nodup_cons] at distinct
    rw [place]
    rcases List.mem_cons.mp present with rfl | later
    · rw [if_pos rfl]
    · have differs : entry.1 ≠ key := by
        rintro rfl
        exact distinct.1 (List.mem_map.mpr ⟨_, later, rfl⟩)
      rw [if_neg differs, ih distinct.2 later]

theorem nodup_place (distinct : (entries.map Prod.fst).Nodup) :
    ((place key value entries).map Prod.fst).Nodup := by
  by_cases present : key ∈ entries.map Prod.fst
  · rw [keys_place_of_mem present]
    exact distinct
  · rw [place_of_not_mem present, List.map_append]
    exact distinct.append (List.nodup_singleton _) (by simpa using present)

/-- The map with no entry. -/
def empty : OrderedMap κ ν := ⟨[], List.nodup_nil⟩

/-- Set the value of a key. -/
def set (m : OrderedMap κ ν) (key : κ) (value : ν) : OrderedMap κ ν :=
  ⟨place key value m.entries, nodup_place m.distinct⟩

/-- The value of a key. -/
def get? (m : OrderedMap κ ν) (key : κ) : Option ν := m.entries.lookup key

/-- The values in insertion order. -/
def values (m : OrderedMap κ ν) : List ν := m.entries.map Prod.snd

theorem values_set (m : OrderedMap κ ν) (key : κ) (value : ν) :
    (m.set key value).values = (place key value m.entries).map Prod.snd := rfl

/-- The keys in insertion order. -/
def keys (m : OrderedMap κ ν) : List κ := m.entries.map Prod.fst

/-- Drop a key. -/
def erase (m : OrderedMap κ ν) (key : κ) : OrderedMap κ ν :=
  ⟨m.entries.filter fun entry => entry.1 ≠ key, m.distinct.sublist (List.filter_sublist.map _)⟩

omit [DecidableEq κ] in
/-- Keep the keys that pass a test. -/
def filterKeys (keep : κ → Bool) (m : OrderedMap κ ν) : OrderedMap κ ν :=
  ⟨m.entries.filter fun entry => keep entry.1, m.distinct.sublist (List.filter_sublist.map _)⟩

omit [DecidableEq κ] in
@[simp] theorem keys_empty : (empty : OrderedMap κ ν).keys = [] := rfl

omit [DecidableEq κ] in
@[simp] theorem values_empty : (empty : OrderedMap κ ν).values = [] := rfl

variable {m : OrderedMap κ ν} {other : κ}

theorem mem_keys_set : other ∈ (m.set key value).keys ↔ other ∈ m.keys ∨ other = key := by
  change other ∈ (place key value m.entries).map Prod.fst ↔ _
  by_cases present : key ∈ m.entries.map Prod.fst
  · rw [keys_place_of_mem present]
    constructor
    · exact Or.inl
    · rintro (mem | rfl)
      · exact mem
      · exact present
  · rw [place_of_not_mem present, List.map_append, List.mem_append]
    exact or_congr_right List.mem_singleton

theorem mem_keys_erase : other ∈ (m.erase key).keys ↔ other ∈ m.keys ∧ other ≠ key := by
  simp only [keys, erase, List.mem_map, List.mem_filter, decide_eq_true_eq]
  constructor
  · rintro ⟨entry, ⟨mem, differs⟩, rfl⟩
    exact ⟨⟨entry, mem, rfl⟩, differs⟩
  · rintro ⟨⟨entry, mem, rfl⟩, differs⟩
    exact ⟨entry, ⟨mem, differs⟩, rfl⟩

/-- A value is one that was there or the one that is set. -/
theorem mem_values_set {other : ν} (mem : other ∈ (m.set key value).values) :
    other ∈ m.values ∨ other = value := by
  have placed (entries : List (κ × ν)) (mem : other ∈ (place key value entries).map Prod.snd) :
      other ∈ entries.map Prod.snd ∨ other = value := by
    induction entries with
    | nil => exact Or.inr (List.mem_singleton.mp mem)
    | cons entry rest ih =>
      rw [place] at mem
      split at mem
      · rw [List.map_cons, List.mem_cons] at mem
        rw [List.map_cons, List.mem_cons]
        exact mem.elim Or.inr fun later => Or.inl (Or.inr later)
      · rw [List.map_cons, List.mem_cons] at mem
        rw [List.map_cons, List.mem_cons, or_assoc]
        exact mem.imp_right fun later => ih later
  exact placed m.entries mem

/-- The value of a key is the one that stands beside it. -/
theorem get?_eq_some_iff : m.get? key = some value ↔ (key, value) ∈ m.entries := by
  have looked (entries : List (κ × ν)) (distinct : (entries.map Prod.fst).Nodup) :
      entries.lookup key = some value ↔ (key, value) ∈ entries := by
    induction entries with
    | nil => simp
    | cons entry rest ih =>
      obtain ⟨other, found⟩ := entry
      rw [List.map_cons, List.nodup_cons] at distinct
      rw [List.lookup_cons, List.mem_cons, Prod.mk.injEq]
      by_cases same : key = other
      · subst same
        rw [beq_self_eq_true]
        constructor
        · rintro ⟨⟩
          exact Or.inl ⟨rfl, rfl⟩
        · rintro (⟨-, rfl⟩ | later)
          · rfl
          · exact absurd (List.mem_map.mpr ⟨_, later, rfl⟩) distinct.1
      · have differs : (key == other) = false := by simpa using same
        rw [differs]
        exact (ih distinct.2).trans ⟨Or.inr, fun mem => mem.resolve_left fun both => same both.1⟩
  exact looked m.entries m.distinct

/-- A key that is new to a map comes last. -/
theorem entries_set_of_not_mem (fresh : key ∉ m.keys) :
    (m.set key value).entries = m.entries ++ [(key, value)] :=
  place_of_not_mem fresh

theorem mem_entries_erase {entry : κ × ν} :
    entry ∈ (m.erase key).entries ↔ entry ∈ m.entries ∧ entry.1 ≠ key := by
  simp [erase]

theorem isSome_get? : (m.get? key).isSome ↔ key ∈ m.keys := by
  rw [Option.isSome_iff_exists, keys, List.mem_map]
  constructor
  · rintro ⟨value, found⟩
    exact ⟨(key, value), get?_eq_some_iff.mp found, rfl⟩
  · rintro ⟨⟨other, value⟩, mem, rfl⟩
    exact ⟨value, get?_eq_some_iff.mpr mem⟩

/-- Dropping a key that was new when it was set leaves the map as it was before. -/
theorem erase_set_of_not_mem (fresh : key ∉ m.keys) (value : ν) :
    (m.set key value).erase key = m := by
  obtain ⟨entries, distinct⟩ := m
  have kept : entries.filter (fun entry => entry.1 ≠ key) = entries := by
    refine List.filter_eq_self.mpr fun entry mem => ?_
    simpa using fun same : entry.1 = key => fresh (same ▸ List.mem_map.mpr ⟨entry, mem, rfl⟩)
  have placed : place key value entries = entries ++ [(key, value)] := place_of_not_mem fresh
  simp only [erase, set, placed, List.filter_append, kept]
  simp

theorem get?_set_self (m : OrderedMap κ ν) (key : κ) (value : ν) :
    (m.set key value).get? key = some value := by
  have looked (entries : List (κ × ν)) : (place key value entries).lookup key = some value := by
    induction entries with
    | nil => simp [place]
    | cons entry rest ih =>
      obtain ⟨other, found⟩ := entry
      rw [place]
      by_cases same : other = key
      · rw [if_pos same]
        simp
      · have differs : (key == other) = false := by simpa using Ne.symm same
        rw [if_neg same, List.lookup_cons, differs]
        exact ih
  exact looked m.entries

theorem get?_set_of_ne (differs : other ≠ key) (value : ν) :
    (m.set key value).get? other = m.get? other := by
  have away : (other == key) = false := by simpa using differs
  have looked (entries : List (κ × ν)) :
      (place key value entries).lookup other = entries.lookup other := by
    induction entries with
    | nil => simpa [place] using differs
    | cons entry rest ih =>
      obtain ⟨third, found⟩ := entry
      rw [place]
      by_cases same : third = key
      · rw [if_pos same, List.lookup_cons, List.lookup_cons, same, away]
      · rw [if_neg same, List.lookup_cons, List.lookup_cons, ih]
  exact looked m.entries

theorem get?_erase_self (m : OrderedMap κ ν) (key : κ) : (m.erase key).get? key = none := by
  rw [← Option.not_isSome_iff_eq_none, isSome_get?, mem_keys_erase]
  exact fun both => both.2 rfl

theorem get?_erase_of_ne (differs : other ≠ key) : (m.erase key).get? other = m.get? other := by
  refine Option.ext fun value => ?_
  rw [get?_eq_some_iff, get?_eq_some_iff, mem_entries_erase]
  exact and_iff_left differs

/-- Set the keys of a list one after the other. -/
def ofList (entries : List (κ × ν)) : OrderedMap κ ν :=
  entries.foldl (fun m entry => m.set entry.1 entry.2) empty

/-- Setting keys that are new to a map appends their entries. -/
theorem entries_foldl_set (distinct : ((m.entries ++ entries).map Prod.fst).Nodup) :
    (entries.foldl (fun m entry => m.set entry.1 entry.2) m).entries = m.entries ++ entries := by
  induction entries generalizing m with
  | nil => simp
  | cons entry entries ih =>
    have fresh : entry.1 ∉ m.entries.map Prod.fst := by
      rw [List.map_append, List.map_cons] at distinct
      exact fun mem => List.disjoint_of_nodup_append distinct mem List.mem_cons_self
    have placed : (m.set entry.1 entry.2).entries = m.entries ++ [entry] := place_of_not_mem fresh
    rw [List.foldl_cons, ih (by simpa [placed] using distinct), placed, List.append_assoc,
      List.singleton_append]

theorem mem_keys_ofList : key ∈ (ofList entries).keys ↔ key ∈ entries.map Prod.fst := by
  have folded (m : OrderedMap κ ν) :
      key ∈ (entries.foldl (fun m entry => m.set entry.1 entry.2) m).keys ↔
        key ∈ m.keys ∨ key ∈ entries.map Prod.fst := by
    induction entries generalizing m with
    | nil => simp
    | cons entry rest ih =>
      rw [List.foldl_cons, ih, mem_keys_set, List.map_cons, List.mem_cons, or_assoc]
  simpa [ofList] using folded empty

/-- A list with distinct keys is the map that it builds. -/
theorem entries_ofList (distinct : (entries.map Prod.fst).Nodup) :
    (ofList entries).entries = entries := by
  simpa [ofList, empty] using entries_foldl_set (m := empty) (by simpa [empty] using distinct)

end OrderedMap

/-- A set whose elements stand in the order of their first insertion. -/
structure OrderedSet (κ : Type u) where
  /-- The elements, oldest first. -/
  items : List κ
  /-- No element occurs twice. -/
  distinct : items.Nodup

namespace OrderedSet

variable {κ : Type u}

/-- The set with no element. -/
def empty : OrderedSet κ := ⟨[], List.nodup_nil⟩

@[simp] theorem items_empty : (empty : OrderedSet κ).items = [] := rfl

variable [DecidableEq κ]

instance : DecidableEq (OrderedSet κ) := fun s t =>
  decidable_of_iff (s.items = t.items) ⟨fun same => by cases s; cases t; cases same; rfl,
    fun same => same ▸ rfl⟩

/-- Add an element. -/
def add (s : OrderedSet κ) (item : κ) : OrderedSet κ :=
  if fresh : item ∉ s.items then
    ⟨s.items ++ [item], s.distinct.append (List.nodup_singleton _) (by simpa using fresh)⟩
  else s

@[simp] theorem mem_add {s : OrderedSet κ} {item other : κ} :
    other ∈ (s.add item).items ↔ other ∈ s.items ∨ other = item := by
  rw [add]
  split
  · simp
  · next present =>
    rw [not_not] at present
    constructor
    · exact Or.inl
    · rintro (mem | rfl)
      · exact mem
      · exact present

end OrderedSet

end OutpostPi.Lib
