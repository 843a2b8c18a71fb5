import Mathlib.Logic.Function.Basic
import OutpostPi.Lib.Machine

/-!
# Interleaved calls over shared state

A call of a concurrent component is a list of operations still to be carried out, each atomic
on the shared state. Executing the head operation may put new operations in front of the rest
of the call, which is how a result decides what the call does next. Any number of calls run
at once, and a schedule interleaves their operations freely.

The main notion is `Pending`: some call still has an operation of a given kind ahead of it.
`Pending.of_advance` says that a step consumes only the operation it executes, so an obligation
recorded as pending is either still pending after a step or was discharged by it.
`not_pending_of_idle` turns the obligation into a contradiction once no call is in progress.
-/

set_option autoImplicit false

namespace OutpostPi.Lib

universe u v w x

/-- Requests, the operations they consist of, and the effect of each operation. -/
structure TaskSystem (γ : Type u) (ω : Type v) (ε : Type w) (χ : Type x) where
  /-- The shared states in which a run may begin. -/
  Init : γ → Prop
  /-- The operations of the call that a request starts. -/
  entry : ε → List ω
  /-- The effect of one operation under a choice of the environment, together with the
  operations that its result puts in front of the call. -/
  run : γ → ω → χ → Option (γ × List ω)

/-- The shared state and, for each slot, the operations left in its call. -/
structure TaskState (γ : Type u) (ω : Type v) where
  shared : γ
  tasks : Nat → List ω

/-- Either a free slot takes up a request or a busy one executes its next operation. -/
inductive TaskAction (ε : Type w) (χ : Type x)
  | call (i : Nat) (request : ε)
  | advance (i : Nat) (choice : χ)

variable {γ : Type u} {ω : Type v} {ε : Type w} {χ : Type x}

/-- The slot that an action concerns. -/
def TaskAction.slot : TaskAction ε χ → Nat
  | .call i _ => i
  | .advance i _ => i

namespace TaskState

/-- No call is in progress. -/
def Idle (s : TaskState γ ω) : Prop := ∀ i, s.tasks i = []

/-- The first `n` slots are free. -/
def isFreeBelow (s : TaskState γ ω) (n : Nat) : Bool :=
  (List.range n).all fun i => (s.tasks i).isEmpty

/-- Some call still has an operation satisfying `P` ahead of it. -/
def Pending (s : TaskState γ ω) (P : ω → Prop) : Prop :=
  ∃ i, ∃ op ∈ s.tasks i, P op

/-- The operation that an action executes. -/
def Executes (s : TaskState γ ω) : TaskAction ε χ → ω → Prop
  | .call _ _, _ => False
  | .advance i _, op => (s.tasks i).head? = some op

theorem not_pending_of_idle {s : TaskState γ ω} {P : ω → Prop} (idle : s.Idle) :
    ¬ s.Pending P := by
  rintro ⟨i, op, mem, _⟩
  rw [idle i] at mem
  exact List.not_mem_nil mem

end TaskState

namespace TaskSystem

/-- The machine that interleaves the calls of a task system. -/
def machine (T : TaskSystem γ ω ε χ) : Machine (TaskState γ ω) (TaskAction ε χ) where
  Init s := T.Init s.shared ∧ s.Idle
  step
    | s, .call i request =>
      match s.tasks i with
      | [] => some { s with tasks := Function.update s.tasks i (T.entry request) }
      | _ :: _ => none
    | s, .advance i choice =>
      match s.tasks i with
      | [] => none
      | op :: rest =>
        (T.run s.shared op choice).map fun result =>
          ⟨result.1, Function.update s.tasks i (result.2 ++ rest)⟩

variable {T : TaskSystem γ ω ε χ} {s s' : TaskState γ ω} {P : ω → Prop}

/-! ## What a step does -/

variable {i : Nat}

/-- Taking up a request leaves the shared state alone. -/
theorem step_call {request : ε} (taken : T.machine.step s (.call i request) = some s') :
    s.tasks i = [] ∧ s' = { s with tasks := Function.update s.tasks i (T.entry request) } := by
  simp only [machine] at taken
  split at taken
  · next free => exact ⟨free, by simpa using taken.symm⟩
  · simp at taken

/-- An advancing call executes the operation at its head and nothing else. -/
theorem step_advance {choice : χ} (taken : T.machine.step s (.advance i choice) = some s') :
    ∃ op rest g new, s.tasks i = op :: rest ∧ T.run s.shared op choice = some (g, new) ∧
      s' = ⟨g, Function.update s.tasks i (new ++ rest)⟩ := by
  simp only [machine] at taken
  split at taken
  · simp at taken
  · next op rest busy =>
    rw [Option.map_eq_some_iff] at taken
    obtain ⟨⟨g, new⟩, ran, rfl⟩ := taken
    exact ⟨op, rest, g, new, busy, ran, rfl⟩

/-! ## Pending operations -/

/-- Taking up a request discharges nothing. -/
theorem pending_call {request : ε} (free : s.tasks i = []) (pending : s.Pending P) :
    TaskState.Pending { s with tasks := Function.update s.tasks i (T.entry request) } P := by
  obtain ⟨j, op, mem, holds⟩ := pending
  have other : j ≠ i := by
    rintro rfl
    rw [free] at mem
    exact List.not_mem_nil mem
  refine ⟨j, op, ?_, holds⟩
  simpa [Function.update_of_ne other] using mem

/-- An obligation is still pending after a step, or the step executed it. -/
theorem pending_advance {op : ω} {rest new : List ω} {g : γ} (busy : s.tasks i = op :: rest)
    (pending : s.Pending P) :
    P op ∨ TaskState.Pending ⟨g, Function.update s.tasks i (new ++ rest)⟩ P := by
  obtain ⟨j, op', mem, holds⟩ := pending
  by_cases same : j = i
  · subst same
    rw [busy, List.mem_cons] at mem
    rcases mem with rfl | mem
    · exact Or.inl holds
    · refine Or.inr ⟨j, op', ?_, holds⟩
      simp [mem]
  · refine Or.inr ⟨j, op', ?_, holds⟩
    simpa [Function.update_of_ne same] using mem

/-- What an operation puts in front of its call is pending after it. -/
theorem pending_new {op : ω} {rest new : List ω} {g : γ} (mem : op ∈ new) (holds : P op) :
    TaskState.Pending ⟨g, Function.update s.tasks i (new ++ rest)⟩ P :=
  ⟨i, op, by simp [mem], holds⟩

/-- Nothing becomes pending except what the executed operation put in front. -/
theorem pending_of_pending_advance {op : ω} {rest new : List ω} {g : γ}
    (busy : s.tasks i = op :: rest)
    (pending : TaskState.Pending ⟨g, Function.update s.tasks i (new ++ rest)⟩ P) :
    s.Pending P ∨ ∃ op' ∈ new, P op' := by
  obtain ⟨j, op', mem, holds⟩ := pending
  by_cases same : j = i
  · subst same
    simp only [Function.update_self, List.mem_append] at mem
    rcases mem with fresh | left
    · exact Or.inr ⟨op', fresh, holds⟩
    · exact Or.inl ⟨j, op', by simp [busy, left], holds⟩
  · refine Or.inl ⟨j, op', ?_, holds⟩
    simpa [Function.update_of_ne same] using mem

/-- A new call is the only source of what becomes pending when a request is taken up. -/
theorem pending_of_pending_call {request : ε} (pending : TaskState.Pending
      { s with tasks := Function.update s.tasks i (T.entry request) } P) :
    s.Pending P ∨ ∃ op ∈ T.entry request, P op := by
  obtain ⟨j, op, mem, holds⟩ := pending
  by_cases same : j = i
  · subst same
    simp only [Function.update_self] at mem
    exact Or.inr ⟨op, mem, holds⟩
  · refine Or.inl ⟨j, op, ?_, holds⟩
    simpa [Function.update_of_ne same] using mem

/-! ## Slots that a schedule does not name -/

/-- A schedule leaves every slot it does not name as it was. -/
theorem tasks_exec_of_not_named {schedule : List (TaskAction ε χ)} {j : Nat}
    (unnamed : ∀ a ∈ schedule, a.slot ≠ j)
    (executed : T.machine.exec s schedule = some s') : s'.tasks j = s.tasks j := by
  induction schedule generalizing s with
  | nil =>
    obtain rfl : s = s' := by simpa [Machine.exec] using executed
    rfl
  | cons a schedule ih =>
    rw [Machine.exec, Option.bind_eq_some_iff] at executed
    obtain ⟨next, taken, rest⟩ := executed
    have later := ih (fun b mem => unnamed b (List.mem_cons_of_mem a mem)) rest
    have other : j ≠ a.slot := (unnamed a List.mem_cons_self).symm
    rw [later]
    cases a with
    | call i request =>
      obtain ⟨-, rfl⟩ := step_call taken
      exact Function.update_of_ne other _ _
    | advance i choice =>
      obtain ⟨op, left, g, new, -, -, rfl⟩ := step_advance taken
      exact Function.update_of_ne other _ _

/-- An execution over finitely many slots ends idle when those slots are free. -/
theorem idle_of_exec {schedule : List (TaskAction ε χ)} (n : Nat)
    (bounded : ∀ a ∈ schedule, a.slot < n) (start : s.Idle)
    (executed : T.machine.exec s schedule = some s') (free : s'.isFreeBelow n = true) :
    s'.Idle := by
  intro j
  by_cases small : j < n
  · have empty := List.all_eq_true.mp free j (List.mem_range.mpr small)
    exact List.isEmpty_iff.mp empty
  · rw [tasks_exec_of_not_named (fun a mem => ?_) executed, start j]
    exact Nat.ne_of_lt (Nat.lt_of_lt_of_le (bounded a mem) (Nat.le_of_not_lt small))

end TaskSystem

end OutpostPi.Lib
