import OutpostPi.Lib.Tasks

/-!
# Feeds that report a value after it has changed

A component keeps a value and reports its changes to an observer, but the change and the
report are separate operations of a call. A `Feed` names the value, the reports that the
observer has received so far, and the operations that are still going to report a given value.

`Settled` says that the last report is the current value, or that a report of the current
value is still owed by a call in progress. `settled_quiet`, `settled_change` and
`settled_report` are the three ways in which an operation can keep this, and `agrees_of_idle`
is what it gives once no call is in progress.
-/

set_option autoImplicit false

namespace OutpostPi.Lib

universe u v w x y

/-- A value, the reports of it received so far, and the operations that will report it. -/
structure Feed (γ : Type u) (ω : Type v) (β : Type y) where
  value : γ → β
  log : γ → List β
  Owes : β → ω → Prop

namespace Feed

variable {γ : Type u} {ω : Type v} {ε : Type w} {χ : Type x} {β : Type y}

/-- The last report is current, or a current one is still to come. -/
def Settled (feed : Feed γ ω β) (s : TaskState γ ω) : Prop :=
  ∀ b, (feed.log s.shared).getLast? = some b →
    b = feed.value s.shared ∨ s.Pending (feed.Owes (feed.value s.shared))

variable {feed : Feed γ ω β} {T : TaskSystem γ ω ε χ} {s : TaskState γ ω}

/-- Nothing has been reported yet. -/
theorem settled_of_log_nil (silent : feed.log s.shared = []) : feed.Settled s := by
  intro b last
  simp [silent] at last

/-- With no call in progress the last report is the current value. -/
theorem agrees_of_idle (settled : feed.Settled s) (idle : s.Idle) {b : β}
    (last : (feed.log s.shared).getLast? = some b) : b = feed.value s.shared := by
  rcases settled b last with agrees | pending
  · exact agrees
  · exact absurd pending (TaskState.not_pending_of_idle idle)

/-- Taking up a request keeps a feed settled. -/
theorem settled_call {i : Nat} {request : ε} (free : s.tasks i = []) (settled : feed.Settled s) :
    feed.Settled { s with tasks := Function.update s.tasks i (T.entry request) } := by
  intro b last
  rcases settled b last with agrees | pending
  · exact Or.inl agrees
  · exact Or.inr (TaskSystem.pending_call free pending)

section Advance

variable {i : Nat} {op : ω} {rest new : List ω} {g : γ}

/-- An operation that reports nothing and changes nothing, and hands on what it owes. -/
theorem settled_quiet (busy : s.tasks i = op :: rest) (settled : feed.Settled s)
    (sameLog : feed.log g = feed.log s.shared)
    (sameValue : feed.value g = feed.value s.shared)
    (handsOn : feed.Owes (feed.value s.shared) op →
      ∃ op' ∈ new, feed.Owes (feed.value s.shared) op') :
    feed.Settled ⟨g, Function.update s.tasks i (new ++ rest)⟩ := by
  intro b last
  rw [show feed.log _ = feed.log s.shared from sameLog] at last
  rw [show feed.value _ = feed.value s.shared from sameValue]
  rcases settled b last with agrees | pending
  · exact Or.inl agrees
  · rcases TaskSystem.pending_advance busy pending with owing | pending
    · obtain ⟨op', mem, owes⟩ := handsOn owing
      exact Or.inr (TaskSystem.pending_new mem owes)
    · exact Or.inr pending

/-- An operation that changes the value and owes the report of the new one. -/
theorem settled_change {o : ω} (mem : o ∈ new) (owes : feed.Owes (feed.value g) o) :
    feed.Settled ⟨g, Function.update s.tasks i (new ++ rest)⟩ :=
  fun _ _ => Or.inr (TaskSystem.pending_new mem owes)

/-- An operation that reports: the current value, or another one while the current one is owed
elsewhere. -/
theorem settled_report {b : β} (busy : s.tasks i = op :: rest)
    (sameValue : feed.value g = feed.value s.shared)
    (reports : feed.log g = feed.log s.shared ++ [b])
    (admitted : b = feed.value s.shared ∨ s.Pending (feed.Owes (feed.value s.shared)))
    (own : feed.Owes (feed.value s.shared) op → b = feed.value s.shared) :
    feed.Settled ⟨g, Function.update s.tasks i (new ++ rest)⟩ := by
  intro b' last
  rw [show feed.log _ = feed.log s.shared ++ [b] from reports, List.getLast?_concat,
    Option.some.injEq] at last
  subst last
  rw [show feed.value _ = feed.value s.shared from sameValue]
  rcases admitted with agrees | pending
  · exact Or.inl agrees
  · rcases TaskSystem.pending_advance busy pending with owing | pending
    · exact Or.inl (own owing)
    · exact Or.inr pending

end Advance

end Feed

end OutpostPi.Lib
