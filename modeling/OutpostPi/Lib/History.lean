import Mathlib.Data.List.Basic
import Mathlib.Data.List.Induction

/-!
# What a history leaves standing

Events of a history may establish a fact and end it again. The fact stands when some event
established it and no later event ended it. `stands_concat` says how one further event changes
that; an event that does both leaves the fact standing.
-/

set_option autoImplicit false

namespace OutpostPi.Lib

universe u v

variable {α : Type u} {adds ends : α → Prop} {history : List α} {event : α}

/-- Some event established the fact and no later one ended it. -/
def Stands (adds ends : α → Prop) (history : List α) : Prop :=
  ∃ before event after, history = before ++ event :: after ∧ adds event ∧
    ∀ later ∈ after, ¬ ends later

theorem not_stands_nil : ¬ Stands adds ends [] := by
  rintro ⟨before, event, after, split, -⟩
  exact List.append_ne_nil_of_right_ne_nil before (List.cons_ne_nil event after) split.symm

theorem stands_concat :
    Stands adds ends (history ++ [event]) ↔
      adds event ∨ Stands adds ends history ∧ ¬ ends event := by
  constructor
  · rintro ⟨before, giving, after, split, established, kept⟩
    -- The event that established the fact is the last one, or an earlier one.
    rcases List.eq_nil_or_concat after with rfl | ⟨after, last, rfl⟩
    · obtain ⟨-, same⟩ := List.append_inj' split rfl
      obtain rfl := List.singleton_inj.mp same
      exact Or.inl established
    · rw [List.concat_eq_append, ← List.cons_append, ← List.append_assoc] at split
      obtain ⟨rfl, same⟩ := List.append_inj' split rfl
      obtain rfl := List.singleton_inj.mp same
      refine Or.inr ⟨⟨before, giving, after, rfl, established, ?_⟩, ?_⟩
      · intro later mem
        exact kept later (by simp [mem])
      · exact kept event (by simp)
  · rintro (established | ⟨⟨before, giving, after, rfl, established, kept⟩, spared⟩)
    · exact ⟨history, event, [], rfl, established, by simp⟩
    · refine ⟨before, giving, after ++ [event], by simp, established, ?_⟩
      intro later mem
      rcases List.mem_append.mp mem with earlier | now
      · exact kept later earlier
      · rw [List.mem_singleton.mp now]
        exact spared

/-- A fact that stands was established. -/
theorem Stands.exists_mem (stands : Stands adds ends history) : ∃ event ∈ history, adds event := by
  obtain ⟨before, event, after, rfl, established, -⟩ := stands
  exact ⟨event, by simp, established⟩

/-- What no event establishes again does not stand once it has ended. -/
theorem not_stands_of_ended {before after : List α} (ended : ends event)
    (unique : ∀ later ∈ event :: after, ¬ adds later) :
    ¬ Stands adds ends (before ++ event :: after) := by
  induction after using List.reverseRecOn with
  | nil =>
    rw [stands_concat]
    rintro (again | ⟨-, spared⟩)
    · exact unique event List.mem_cons_self again
    · exact spared ended
  | append_singleton after last ih =>
    rw [← List.cons_append, ← List.append_assoc, stands_concat]
    rintro (again | ⟨stands, -⟩)
    · exact unique last (by simp) again
    · refine ih ?_ stands
      intro later mem
      rcases List.mem_cons.mp mem with rfl | mem
      · exact unique later List.mem_cons_self
      · exact unique later (by simp [mem])

/-- Where an option of each event occurs once, it determines the event. -/
theorem eq_of_nodup_filterMap {β : Type v} {f : α → Option β} {event' : α} {value : β}
    (once : (history.filterMap f).Nodup) (here : event ∈ history) (here' : event' ∈ history)
    (is : f event = some value) (is' : f event' = some value) : event = event' := by
  induction history with
  | nil => cases here
  | cons head rest ih =>
    have later : ∀ {other : α}, f head = some value → f other = some value → other ∉ rest := by
      intro other first again mem
      rw [List.filterMap_cons_some first] at once
      exact (List.nodup_cons.mp once).1 (List.mem_filterMap.mpr ⟨other, mem, again⟩)
    have rest_once : (rest.filterMap f).Nodup :=
      once.sublist ((List.sublist_cons_self head rest).filterMap f)
    rcases List.mem_cons.mp here with rfl | mem
    · rcases List.mem_cons.mp here' with rfl | mem'
      · rfl
      · exact absurd mem' (later is is')
    · rcases List.mem_cons.mp here' with rfl | mem'
      · exact absurd mem (later is' is)
      · exact ih rest_once mem mem'

end OutpostPi.Lib
