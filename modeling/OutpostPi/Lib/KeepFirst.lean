import Mathlib.Data.List.Nodup

/-!
# The first of each key

`keepFirst` goes through a list and keeps an element when its key has not been seen before, the
loop behind every set of identities that a program collects while it copies a list. What it
keeps has distinct keys (`nodup_keepFirst`), stands in the order of the list, contains the
earliest element of every key (`exists_kept`), and every element that shares its key with no
other one (`mem_keepFirst_of_unique`). What it drops is `repeated`.
-/

set_option autoImplicit false

namespace OutpostPi.Lib

universe u v

variable {α : Type u} {κ : Type v} [DecidableEq κ] {key : α → κ}

/-- Keep the elements whose key is neither seen nor the key of an earlier element. -/
def keepFirst (key : α → κ) : List κ → List α → List α
  | _, [] => []
  | seen, a :: rest =>
    if key a ∈ seen then keepFirst key seen rest else a :: keepFirst key (key a :: seen) rest

variable {a : α} {seen : List κ}

theorem keepFirst_cons_of_seen (known : key a ∈ seen) (rest : List α) :
    keepFirst key seen (a :: rest) = keepFirst key seen rest :=
  if_pos known

theorem keepFirst_cons_of_new (fresh : key a ∉ seen) (rest : List α) :
    keepFirst key seen (a :: rest) = a :: keepFirst key (key a :: seen) rest :=
  if_neg fresh

theorem keepFirst_sublist (seen : List κ) (items : List α) :
    (keepFirst key seen items).Sublist items := by
  induction items generalizing seen with
  | nil => exact List.Sublist.refl []
  | cons a rest ih =>
    by_cases known : key a ∈ seen
    · rw [keepFirst_cons_of_seen known]
      exact (ih seen).cons a
    · rw [keepFirst_cons_of_new known]
      exact (ih (key a :: seen)).cons_cons a

variable {items : List α}

theorem mem_of_mem_keepFirst (kept : a ∈ keepFirst key seen items) : a ∈ items :=
  (keepFirst_sublist seen items).subset kept

theorem not_seen_of_kept (kept : a ∈ keepFirst key seen items) : key a ∉ seen := by
  induction items generalizing seen with
  | nil => cases kept
  | cons b rest ih =>
    by_cases known : key b ∈ seen
    · rw [keepFirst_cons_of_seen known] at kept
      exact ih kept
    · rw [keepFirst_cons_of_new known] at kept
      rcases List.mem_cons.mp kept with rfl | later
      · exact known
      · exact fun mem => ih later (List.mem_cons_of_mem _ mem)

theorem nodup_keepFirst (seen : List κ) (items : List α) :
    ((keepFirst key seen items).map key).Nodup := by
  induction items generalizing seen with
  | nil => exact List.nodup_nil
  | cons a rest ih =>
    by_cases known : key a ∈ seen
    · rw [keepFirst_cons_of_seen known]
      exact ih seen
    · rw [keepFirst_cons_of_new known, List.map_cons, List.nodup_cons]
      refine ⟨?_, ih _⟩
      intro again
      obtain ⟨b, kept, same⟩ := List.mem_map.mp again
      exact not_seen_of_kept kept (same ▸ List.mem_cons_self)

/-- Of every key that is not seen the earliest element is kept, in any order of the list. -/
theorem exists_kept (key : α → κ) {r : α → α → Prop} (ordered : items.Pairwise r)
    (mem : a ∈ items) (fresh : key a ∉ seen) :
    ∃ b ∈ keepFirst key seen items, key b = key a ∧ (b = a ∨ r b a) := by
  induction items generalizing seen with
  | nil => cases mem
  | cons b rest ih =>
    obtain ⟨before, ordered⟩ := List.pairwise_cons.mp ordered
    by_cases known : key b ∈ seen
    · rw [keepFirst_cons_of_seen known]
      rcases List.mem_cons.mp mem with rfl | later
      · exact absurd known fresh
      · exact ih ordered later fresh
    · rw [keepFirst_cons_of_new known]
      rcases List.mem_cons.mp mem with rfl | later
      · exact ⟨a, List.mem_cons_self, rfl, Or.inl rfl⟩
      · by_cases same : key b = key a
        · exact ⟨b, List.mem_cons_self, same, Or.inr (before a later)⟩
        · have still : key a ∉ key b :: seen := by
            simpa [List.mem_cons, not_or] using ⟨Ne.symm same, fresh⟩
          obtain ⟨c, kept, rest⟩ := ih ordered later still
          exact ⟨c, List.mem_cons_of_mem b kept, rest⟩

/-- An element that shares its key with no other one is kept. -/
theorem mem_keepFirst_of_unique (key : α → κ) (mem : a ∈ items)
    (alone : ∀ b ∈ items, key b = key a → b = a) : a ∈ keepFirst key [] items := by
  obtain ⟨b, kept, same, -⟩ :=
    exists_kept key (List.pairwise_of_forall (R := fun _ _ => True) fun _ _ => trivial) mem
      (List.not_mem_nil (a := key a))
  exact alone b (mem_of_mem_keepFirst kept) same ▸ kept

/-- Only the members of the seen keys matter. -/
theorem keepFirst_congr {seen' : List κ} (same : ∀ k, k ∈ seen ↔ k ∈ seen') (items : List α) :
    keepFirst key seen items = keepFirst key seen' items := by
  induction items generalizing seen seen' with
  | nil => rfl
  | cons a rest ih =>
    by_cases known : key a ∈ seen
    · rw [keepFirst_cons_of_seen known, keepFirst_cons_of_seen ((same _).mp known)]
      exact ih same
    · rw [keepFirst_cons_of_new known, keepFirst_cons_of_new (mt (same _).mpr known)]
      congr 1
      apply ih
      intro k
      rw [List.mem_cons, List.mem_cons, same k]

/-- What is kept of two lists, one after the other. -/
theorem keepFirst_append (seen : List κ) (front back : List α) :
    keepFirst key seen (front ++ back) =
      keepFirst key seen front ++
        keepFirst key ((keepFirst key seen front).map key ++ seen) back := by
  induction front generalizing seen with
  | nil => rfl
  | cons a front ih =>
    by_cases known : key a ∈ seen
    · rw [List.cons_append, keepFirst_cons_of_seen known, keepFirst_cons_of_seen known, ih]
    · rw [List.cons_append, keepFirst_cons_of_new known, keepFirst_cons_of_new known, ih,
        List.cons_append]
      congr 2
      apply keepFirst_congr
      intro k
      simp only [List.map_cons, List.cons_append, List.mem_append, List.mem_cons]
      exact or_left_comm

/-- Nothing is kept where every key is seen. -/
theorem keepFirst_eq_nil (known : ∀ a ∈ items, key a ∈ seen) : keepFirst key seen items = [] := by
  apply List.eq_nil_iff_forall_not_mem.mpr
  intro a kept
  exact not_seen_of_kept kept (known a (mem_of_mem_keepFirst kept))

/-- The keys that are seen after a list are those of its elements and those seen before. -/
theorem mem_keys_keepFirst {k : κ} :
    k ∈ (keepFirst key seen items).map key ++ seen ↔ k ∈ items.map key ++ seen := by
  rw [List.mem_append, List.mem_append]
  constructor
  · rintro (kept | old)
    · exact Or.inl ((keepFirst_sublist seen items).map key |>.subset kept)
    · exact Or.inr old
  · rintro (here | old)
    · by_cases old : k ∈ seen
      · exact Or.inr old
      · obtain ⟨a, mem, rfl⟩ := List.mem_map.mp here
        obtain ⟨b, kept, same, -⟩ := exists_kept key
          (List.pairwise_of_forall (R := fun _ _ => True) fun _ _ => trivial) mem old
        exact Or.inl (List.mem_map.mpr ⟨b, kept, same⟩)
    · exact Or.inr old

/-- An element whose key occurs before it makes no difference. -/
theorem keepFirst_of_repeated {front : List α} (repeated : key a ∈ front.map key) (seen : List κ)
    (back : List α) :
    keepFirst key seen (front ++ a :: back) = keepFirst key seen (front ++ back) := by
  have known := mem_keys_keepFirst.mpr (List.mem_append_left seen repeated)
  rw [keepFirst_append, keepFirst_append, keepFirst_cons_of_seen known]

/-- A key that no element has makes no difference. -/
theorem keepFirst_of_absent {k : κ} (absent : k ∉ items.map key) (seen : List κ) :
    keepFirst key (k :: seen) items = keepFirst key seen items := by
  induction items generalizing seen with
  | nil => rfl
  | cons a rest ih =>
    rw [List.map_cons, List.mem_cons, not_or] at absent
    have same : key a ∈ k :: seen ↔ key a ∈ seen := by
      rw [List.mem_cons, or_iff_right (Ne.symm absent.1)]
    by_cases known : key a ∈ seen
    · rw [keepFirst_cons_of_seen known, keepFirst_cons_of_seen (same.mpr known), ih absent.2]
    · rw [keepFirst_cons_of_new known, keepFirst_cons_of_new (mt same.mp known),
        ← ih absent.2 (key a :: seen)]
      congr 1
      apply keepFirst_congr
      intro other
      simp only [List.mem_cons]
      exact or_left_comm

/-- What a test of the keys selects of the kept elements is kept of what it selects. -/
theorem filter_keepFirst (test : κ → Bool) (seen : List κ) (items : List α) :
    (keepFirst key seen items).filter (fun a => test (key a)) =
      keepFirst key seen (items.filter fun a => test (key a)) := by
  induction items generalizing seen with
  | nil => rfl
  | cons a rest ih =>
    by_cases known : key a ∈ seen
    · rw [keepFirst_cons_of_seen known, ih]
      cases passes : test (key a) with
      | true =>
        rw [List.filter_cons_of_pos (by simpa using passes), keepFirst_cons_of_seen known]
      | false => rw [List.filter_cons_of_neg (by simp [passes])]
    · rw [keepFirst_cons_of_new known]
      cases passes : test (key a) with
      | true =>
        rw [List.filter_cons_of_pos (by simpa using passes),
          List.filter_cons_of_pos (by simpa using passes), keepFirst_cons_of_new known, ih]
      | false =>
        rw [List.filter_cons_of_neg (by simp [passes]), List.filter_cons_of_neg (by simp [passes]),
          ih]
        -- a key that fails the test is that of no element that passes it
        apply keepFirst_of_absent
        intro mem
        obtain ⟨b, here, same⟩ := List.mem_map.mp mem
        have passed : test (key b) = true := by simpa using (List.mem_filter.mp here).2
        rw [same, passes] at passed
        cases passed

/-- A key that counts as seen removes its elements. -/
theorem keepFirst_cons_seen (k : κ) (seen : List κ) (items : List α) :
    keepFirst key (k :: seen) items =
      keepFirst key seen (items.filter fun a => decide (key a ≠ k)) := by
  have others : (keepFirst key (k :: seen) items).filter (fun a => decide (key a ≠ k)) =
      keepFirst key (k :: seen) items := by
    apply List.filter_eq_self.mpr
    intro a kept
    have unseen := not_seen_of_kept kept
    simp only [List.mem_cons, not_or] at unseen
    exact decide_eq_true unseen.1
  rw [← others, filter_keepFirst (fun other => decide (other ≠ k))]
  apply keepFirst_of_absent
  intro mem
  obtain ⟨a, here, same⟩ := List.mem_map.mp mem
  exact of_decide_eq_true (List.mem_filter.mp here).2 same

/-- The elements that `keepFirst` drops. -/
def repeated (key : α → κ) : List κ → List α → List α
  | _, [] => []
  | seen, a :: rest =>
    if key a ∈ seen then a :: repeated key seen rest else repeated key (key a :: seen) rest

/-- Every element is either kept or dropped. -/
theorem countP_keepFirst_add (key : α → κ) (test : α → Bool) (seen : List κ) (items : List α) :
    (keepFirst key seen items).countP test + (repeated key seen items).countP test =
      items.countP test := by
  induction items generalizing seen with
  | nil => rfl
  | cons a rest ih =>
    rw [keepFirst, repeated, List.countP_cons]
    split
    · rw [List.countP_cons, ← ih seen]
      omega
    · rw [List.countP_cons, ← ih (key a :: seen)]
      omega

end OutpostPi.Lib
