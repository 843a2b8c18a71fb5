import Mathlib.Algebra.Ring.Nat
import Mathlib.Data.List.AList

/-!
# Finite maps with distinct keys

`Map κ ν` is the association list of Mathlib at a constant value type: insertion, removal and
lookup with their laws come from there. What is added is the traversal of a hash map that
rewrites every value in place, `Map.mapValues`, with its two laws, the assignment that keeps a
present key in its place, `Map.put`, the order in which a hash table lists its entries, the removal
of entries by a test, the test whether some key satisfies a predicate, and sums of a measure over
all entries.
-/

set_option autoImplicit false

namespace OutpostPi.Lib

universe u v

/-- A finite map from `κ` to `ν`. -/
abbrev Map (κ : Type u) (ν : Type v) := AList fun _ : κ => ν

namespace Map

variable {κ : Type u} {ν : Type v}

/-- Rewrite each value, with its key in view. -/
def mapValues (f : κ → ν → ν) (m : Map κ ν) : Map κ ν where
  entries := m.entries.map fun entry => ⟨entry.1, f entry.1 entry.2⟩
  nodupKeys := by
    have distinct := m.nodupKeys
    rw [List.NodupKeys] at distinct ⊢
    simpa [List.keys, List.map_map, Function.comp_def] using distinct

/-- Keep the entries that satisfy a test. -/
def filter (keep : κ → ν → Bool) (m : Map κ ν) : Map κ ν where
  entries := m.entries.filter fun entry => keep entry.1 entry.2
  nodupKeys := by
    have distinct := m.nodupKeys
    rw [List.NodupKeys] at distinct ⊢
    exact distinct.sublist (List.filter_sublist.map Sigma.fst)

/-- Whether some key satisfies a test. -/
def anyKey (m : Map κ ν) (test : κ → Bool) : Bool := m.keys.any test

variable {m : Map κ ν}

@[simp] theorem mem_mapValues {f : κ → ν → ν} {k : κ} : k ∈ mapValues f m ↔ k ∈ m := by
  simp [AList.mem_keys, AList.keys, mapValues, List.keys, Function.comp_def]

theorem anyKey_eq_true {test : κ → Bool} : m.anyKey test = true ↔ ∃ k ∈ m, test k = true := by
  simp [anyKey, AList.mem_keys]

variable [DecidableEq κ]

@[simp] theorem lookup_mapValues {f : κ → ν → ν} {k : κ} :
    (mapValues f m).lookup k = (m.lookup k).map (f k) := by
  obtain ⟨entries, distinct⟩ := m
  simp only [mapValues, AList.lookup]
  clear distinct
  induction entries with
  | nil => rfl
  | cons entry entries ih =>
    obtain ⟨k', value⟩ := entry
    by_cases same : k' = k
    · subst same
      simp
    · rw [List.map_cons, List.dlookup_cons_ne _ _ (Ne.symm same),
        List.dlookup_cons_ne _ _ (Ne.symm same)]
      exact ih

/-! ## Assignment in place -/

/-- Assign a value. A key that is present stays where it is among the entries. -/
def put (k : κ) (value : ν) (m : Map κ ν) : Map κ ν :=
  if k ∈ m then mapValues (fun k' old => if k' = k then value else old) m else m.insert k value

theorem mem_put {k k' : κ} {value : ν} : k' ∈ m.put k value ↔ k' = k ∨ k' ∈ m := by
  rw [put]
  split
  · next present =>
    rw [mem_mapValues]
    constructor
    · exact Or.inr
    · rintro (rfl | mem)
      · exact present
      · exact mem
  · exact AList.mem_insert _

@[simp] theorem lookup_put (k : κ) (value : ν) : (m.put k value).lookup k = some value := by
  rw [put]
  split
  · next present =>
    obtain ⟨old, found⟩ := Option.isSome_iff_exists.mp (AList.lookup_isSome.mpr present)
    rw [lookup_mapValues, found, Option.map_some, if_pos rfl]
  · exact AList.lookup_insert m

theorem lookup_put_ne {k k' : κ} (differs : k' ≠ k) (value : ν) :
    (m.put k value).lookup k' = m.lookup k' := by
  rw [put]
  split
  · rw [lookup_mapValues]
    simp only [if_neg differs, Option.map_id']
  · exact AList.lookup_insert_ne differs

/-- An assignment to a present key keeps the order of the keys. -/
theorem keys_put_of_mem {k : κ} (present : k ∈ m) (value : ν) : (m.put k value).keys = m.keys := by
  rw [put, if_pos present]
  simp [AList.keys, mapValues, List.keys, Function.comp_def]

/-- An order in which a hash table lists its entries. -/
structure Order (κ : Type u) (ν : Type v) where
  list : List (Sigma fun _ : κ => ν) → List (Sigma fun _ : κ => ν)
  perm : ∀ entries, (list entries).Perm entries

/-- The entries in the order that the table has after it has grown. -/
def rehash (order : Order κ ν) (m : Map κ ν) : Map κ ν where
  entries := order.list m.entries
  nodupKeys := (List.perm_nodupKeys (order.perm m.entries)).mpr m.nodupKeys

/-! ## Removal -/

theorem lookup_of_filter {keep : κ → ν → Bool} {k : κ} {value : ν}
    (found : (filter keep m).lookup k = some value) :
    m.lookup k = some value ∧ keep k value = true := by
  have mem := AList.mem_lookup_iff.mp found
  obtain ⟨before, kept⟩ := List.mem_filter.mp mem
  exact ⟨AList.mem_lookup_iff.mpr before, kept⟩

theorem lookup_of_erase {k k' : κ} {value : ν} (found : (m.erase k').lookup k = some value) :
    m.lookup k = some value := by
  by_cases same : k = k'
  · rw [same, AList.lookup_erase] at found
    cases found
  · rwa [AList.lookup_erase_ne same] at found

/-! ## Sizes and sums -/

/-- The number of keys. -/
def size (m : Map κ ν) : Nat := m.entries.length

/-- The sum of a measure over all entries. -/
def sumOf (f : κ → ν → Nat) (m : Map κ ν) : Nat :=
  (m.entries.map fun entry => f entry.1 entry.2).sum

omit [DecidableEq κ] in
@[simp] theorem size_empty : (∅ : Map κ ν).size = 0 := rfl

omit [DecidableEq κ] in
@[simp] theorem sumOf_empty (f : κ → ν → Nat) : sumOf f (∅ : Map κ ν) = 0 := rfl

/-- Measures that agree on every entry have the same sum. -/
theorem sumOf_congr {f g : κ → ν → Nat}
    (same : ∀ k value, m.lookup k = some value → f k value = g k value) :
    sumOf f m = sumOf g m := by
  rw [sumOf, sumOf]
  congr 1
  refine List.map_congr_left ?_
  intro entry mem
  exact same entry.1 entry.2 (AList.mem_lookup_iff.mpr mem)

private theorem sum_kerase (f : κ → ν → Nat) (k : κ) (entries : List (Sigma fun _ : κ => ν)) :
    ((entries.kerase k).map fun entry => f entry.1 entry.2).sum +
        ((entries.dlookup k).map (f k)).getD 0 =
      (entries.map fun entry => f entry.1 entry.2).sum := by
  induction entries with
  | nil => rfl
  | cons entry entries ih =>
    obtain ⟨k', value⟩ := entry
    by_cases same : k' = k
    · subst same
      simp [Nat.add_comm]
    · rw [List.kerase_cons_ne (Ne.symm same), List.dlookup_cons_ne _ _ (Ne.symm same),
        List.map_cons, List.map_cons, List.sum_cons, List.sum_cons, Nat.add_assoc, ih]

/-- One entry measures at most the sum. -/
theorem le_sumOf (f : κ → ν → Nat) (m : Map κ ν) (k : κ) :
    ((m.lookup k).map (f k)).getD 0 ≤ sumOf f m := by
  have erased := sum_kerase f k m.entries
  rw [sumOf, ← erased]
  exact Nat.le_add_left _ _

/-- Removal takes away the measure of the old entry. -/
theorem sumOf_erase (f : κ → ν → Nat) (m : Map κ ν) (k : κ) :
    sumOf f (m.erase k) + ((m.lookup k).map (f k)).getD 0 = sumOf f m :=
  sum_kerase f k m.entries

/-- Insertion replaces the measure of the old entry by that of the new one. -/
theorem sumOf_insert (f : κ → ν → Nat) (m : Map κ ν) (k : κ) (value : ν) :
    sumOf f (m.insert k value) + ((m.lookup k).map (f k)).getD 0 = sumOf f m + f k value := by
  have erased := sum_kerase f k m.entries
  rw [sumOf, sumOf, AList.entries_insert, List.map_cons, List.sum_cons]
  simp only [AList.lookup]
  omega

/-- Insertion adds a key unless it was there. -/
theorem size_insert (m : Map κ ν) (k : κ) (value : ν) :
    size (m.insert k value) + ((m.lookup k).map fun _ => 1).getD 0 = size m + 1 := by
  have counted := sumOf_insert (fun _ _ => 1) m k value
  have ones : ∀ m' : Map κ ν, sumOf (fun _ _ => 1) m' = size m' := by
    intro m'
    simp [sumOf, size]
  rwa [ones, ones] at counted

/-- Removal takes away a key if it was there. -/
theorem size_erase (m : Map κ ν) (k : κ) :
    size (m.erase k) + ((m.lookup k).map fun _ => 1).getD 0 = size m := by
  have counted := sumOf_erase (fun _ _ => 1) m k
  have ones : ∀ m' : Map κ ν, sumOf (fun _ _ => 1) m' = size m' := by
    intro m'
    simp [sumOf, size]
  rwa [ones, ones] at counted

/-- A key is present exactly when it has a value. -/
theorem mem_iff_lookup {k : κ} : k ∈ m ↔ ∃ value, m.lookup k = some value := by
  rw [← AList.lookup_isSome, Option.isSome_iff_exists]

end Map

/-- A component after an update is the new one, or an old one at another index. -/
theorem of_update_eq_some {ι : Type u} {ν : Type v} [DecidableEq ι] {f : ι → Option ν}
    {index i : ι} {new : Option ν} {value : ν} (is : Function.update f index new i = some value) :
    (i = index ∧ new = some value) ∨ i ≠ index ∧ f i = some value := by
  rcases eq_or_ne i index with rfl | elsewhere
  · rw [Function.update_self] at is
    exact Or.inl ⟨rfl, is⟩
  · rw [Function.update_of_ne elsewhere] at is
    exact Or.inr ⟨elsewhere, is⟩

end OutpostPi.Lib
