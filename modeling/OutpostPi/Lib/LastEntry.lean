import OutpostPi.Lib.OrderedMap

/-!
# The last entry of its kind

A map that is filled from a list keeps, for every key, the value of the last item with that key.
`IsLast` says which items these are (`get?_indexed`), and so when two maps that are filled from
one list by different keys are inverse to each other (`inverse_iff`).
-/

set_option autoImplicit false

namespace OutpostPi.Lib

universe u v w

variable {α : Type u}

/-- The map that is filled from a list, item after item. -/
def OrderedMap.indexed {κ : Type v} {ν : Type w} [DecidableEq κ] (key : α → κ) (value : α → ν)
    (items : List α) : OrderedMap κ ν :=
  items.foldl (fun m item => m.set (key item) (value item)) .empty

/-- The item stands in the list, and no later one has its key. -/
def IsLast {κ : Type v} (key : α → κ) : List α → α → Prop
  | [], _ => False
  | item :: rest, last =>
    IsLast key rest last ∨ (item = last ∧ ∀ later ∈ rest, key later ≠ key last)

section OneKey

variable {κ : Type v} {key : α → κ} {items : List α}

instance decidableIsLast [DecidableEq α] [DecidableEq κ] :
    ∀ (items : List α) (last : α), Decidable (IsLast key items last)
  | [], _ => inferInstanceAs (Decidable False)
  | _ :: rest, last =>
    haveI := decidableIsLast rest last
    inferInstanceAs (Decidable (_ ∨ _))

theorem IsLast.mem {last : α} (isLast : IsLast key items last) : last ∈ items := by
  induction items with
  | nil => cases isLast
  | cons item rest ih =>
    rcases isLast with later | ⟨rfl, -⟩
    · exact List.mem_cons_of_mem _ (ih later)
    · exact List.mem_cons_self

/-- An item whose key no other item has is the last one with it. -/
theorem isLast_of_unique {last : α} (mem : last ∈ items)
    (unique : ∀ item ∈ items, key item = key last → item = last) : IsLast key items last := by
  induction items with
  | nil => exact absurd mem List.not_mem_nil
  | cons item rest ih =>
    by_cases again : last ∈ rest
    · exact Or.inl (ih again fun other listed => unique other (List.mem_cons_of_mem _ listed))
    · have first : item = last := ((List.mem_cons.mp mem).resolve_right again).symm
      refine Or.inr ⟨first, fun later listed same => again ?_⟩
      rwa [← unique later (List.mem_cons_of_mem _ listed) same]

variable {ν : Type w} [DecidableEq κ] {value : α → ν}

/-- After a list of items a key has the value of the last item with it, or what it had before. -/
theorem get?_foldl_set {k : κ} {v : ν} {m : OrderedMap κ ν} :
    (items.foldl (fun m item => m.set (key item) (value item)) m).get? k = some v ↔
      (∃ last, IsLast key items last ∧ key last = k ∧ value last = v) ∨
        (∀ item ∈ items, key item ≠ k) ∧ m.get? k = some v := by
  induction items generalizing m with
  | nil => simp [IsLast]
  | cons item rest ih =>
    rw [List.foldl_cons, ih]
    constructor
    · rintro (⟨last, isLast, same⟩ | ⟨absent, found⟩)
      · exact Or.inl ⟨last, Or.inl isLast, same⟩
      · by_cases here : key item = k
        · subst here
          rw [OrderedMap.get?_set_self, Option.some_inj] at found
          exact Or.inl ⟨item, Or.inr ⟨rfl, absent⟩, rfl, found⟩
        · rw [OrderedMap.get?_set_of_ne (Ne.symm here)] at found
          refine Or.inr ⟨fun other mem => ?_, found⟩
          rcases List.mem_cons.mp mem with rfl | later
          · exact here
          · exact absent other later
    · rintro (⟨last, later | ⟨rfl, absent⟩, rfl, rfl⟩ | ⟨absent, found⟩)
      · exact Or.inl ⟨last, later, rfl, rfl⟩
      · exact Or.inr ⟨absent, OrderedMap.get?_set_self _ _ _⟩
      · refine Or.inr ⟨fun other mem => absent other (List.mem_cons_of_mem _ mem), ?_⟩
        rw [OrderedMap.get?_set_of_ne (absent item List.mem_cons_self).symm]
        exact found

/-- A map that is filled from a list has the value of the last item with a key. -/
theorem get?_indexed {k : κ} {v : ν} :
    (OrderedMap.indexed key value items).get? k = some v ↔
      ∃ last, IsLast key items last ∧ key last = k ∧ value last = v := by
  rw [OrderedMap.indexed, get?_foldl_set]
  refine or_iff_left fun before => ?_
  cases before.2

end OneKey

/-- Two maps that are filled from one list by two keys, each with the other key as its value, are
inverse to each other when the last item with one of its keys is the last with the other. -/
theorem inverse_iff {κ : Type v} {ν : Type w} [DecidableEq κ] [DecidableEq ν] {items : List α}
    {key : α → κ} {value : α → ν}
    (both : ∀ first ∈ items, ∀ second ∈ items, key first = key second →
      value first = value second → first = second) :
    (∀ k v, (OrderedMap.indexed key value items).get? k = some v ↔
        (OrderedMap.indexed value key items).get? v = some k) ↔
      ∀ item, IsLast key items item ↔ IsLast value items item := by
  constructor
  · intro inverse item
    constructor
    · intro isLast
      obtain ⟨last, also, sameValue, sameKey⟩ := get?_indexed.mp
        ((inverse _ _).mp (get?_indexed.mpr ⟨item, isLast, rfl, rfl⟩))
      rwa [← both last also.mem item isLast.mem sameKey sameValue]
    · intro isLast
      obtain ⟨last, also, sameKey, sameValue⟩ := get?_indexed.mp
        ((inverse _ _).mpr (get?_indexed.mpr ⟨item, isLast, rfl, rfl⟩))
      rwa [← both last also.mem item isLast.mem sameKey sameValue]
  · intro agree k v
    rw [get?_indexed, get?_indexed]
    constructor
    · rintro ⟨last, isLast, rfl, rfl⟩
      exact ⟨last, (agree last).mp isLast, rfl, rfl⟩
    · rintro ⟨last, isLast, rfl, rfl⟩
      exact ⟨last, (agree last).mpr isLast, rfl, rfl⟩

end OutpostPi.Lib
