import Mathlib.Logic.Relation
import Mathlib.Data.Option.Basic

/-!
# State machines and their runs

A `Machine` has a set of initial states and one partial step function, whose label resolves
every choice of the environment. A schedule is a list of labels, and `exec` runs one.

Runs are taken under a side condition `ok` on the state and the label of each step
(`RunsTo`). The unconditional notions are the case `ok := Always`. The two induction rules
used everywhere else are `RunsTo.invariant`, for a property that every admitted step keeps,
and `ReachableUnder.invariant`, for one that also holds initially. Closed runs are obtained
from executions by `runsTo_of_exec`.
-/

set_option autoImplicit false

namespace OutpostPi.Lib

universe u v w

/-- A state machine with a partial step function. -/
structure Machine (σ : Type u) (α : Type v) where
  /-- The states in which a run may begin. -/
  Init : σ → Prop
  /-- The successor under a label, absent when the label is not enabled. -/
  step : σ → α → Option σ

namespace Machine

variable {σ : Type u} {α : Type v}

/-- The side condition that admits every step. -/
def Always : σ → α → Prop := fun _ _ => True

/-- Run a schedule, failing at the first label that is not enabled. -/
def exec (M : Machine σ α) : σ → List α → Option σ
  | s, [] => some s
  | s, a :: schedule => (M.step s a).bind fun s' => M.exec s' schedule

/-- One step whose source state and label meet the side condition. -/
def StepUnder (M : Machine σ α) (ok : σ → α → Prop) (s s' : σ) : Prop :=
  ∃ a, ok s a ∧ M.step s a = some s'

/-- Finitely many steps, each of which meets the side condition. -/
def RunsTo (M : Machine σ α) (ok : σ → α → Prop) : σ → σ → Prop :=
  Relation.ReflTransGen (M.StepUnder ok)

/-- A state at the end of a run from an initial state. -/
def ReachableUnder (M : Machine σ α) (ok : σ → α → Prop) (s : σ) : Prop :=
  ∃ s₀, M.Init s₀ ∧ M.RunsTo ok s₀ s

/-- Reachability with no side condition. -/
def Reachable (M : Machine σ α) (s : σ) : Prop :=
  M.ReachableUnder Always s

/-- Every label of an executable schedule meets the side condition where it is taken. -/
def Meets (M : Machine σ α) (ok : σ → α → Prop) : σ → List α → Prop
  | _, [] => True
  | s, a :: schedule =>
    ok s a ∧
      match M.step s a with
      | none => True
      | some s' => M.Meets ok s' schedule

/-- A property holds of every state that an executable schedule passes through. -/
def Throughout (M : Machine σ α) (P : σ → Prop) : σ → List α → Prop
  | s, [] => P s
  | s, a :: schedule =>
    P s ∧
      match M.step s a with
      | none => True
      | some s' => M.Throughout P s' schedule

variable {M : Machine σ α} {ok ok' : σ → α → Prop} {s s' s'' : σ}

/-- A guarded step is taken behind its guard. -/
theorem of_guard {p : Prop} [Decidable p] (taken : (if p then some s else none) = some s') :
    p ∧ s = s' := by
  rwa [Option.ite_none_right_eq_some, Option.some.injEq] at taken

/-! ## Composition -/

theorem RunsTo.refl (s : σ) : M.RunsTo ok s s :=
  Relation.ReflTransGen.refl

theorem RunsTo.trans (first : M.RunsTo ok s s') (second : M.RunsTo ok s' s'') :
    M.RunsTo ok s s'' :=
  Relation.ReflTransGen.trans first second

theorem RunsTo.tail {a : α} (run : M.RunsTo ok s s') (admitted : ok s' a)
    (taken : M.step s' a = some s'') : M.RunsTo ok s s'' :=
  Relation.ReflTransGen.tail run ⟨a, admitted, taken⟩

theorem RunsTo.head {a : α} (admitted : ok s a) (taken : M.step s a = some s')
    (run : M.RunsTo ok s' s'') : M.RunsTo ok s s'' :=
  Relation.ReflTransGen.head ⟨a, admitted, taken⟩ run

/-- A run survives the weakening of its side condition. -/
theorem RunsTo.mono (weaker : ∀ t a, ok t a → ok' t a) (run : M.RunsTo ok s s') :
    M.RunsTo ok' s s' := by
  refine Relation.ReflTransGen.mono ?_ _ _ run
  rintro t t' ⟨a, admitted, taken⟩
  exact ⟨a, weaker t a admitted, taken⟩

theorem ReachableUnder.mono (weaker : ∀ t a, ok t a → ok' t a)
    (reached : M.ReachableUnder ok s) : M.ReachableUnder ok' s := by
  obtain ⟨s₀, initial, run⟩ := reached
  exact ⟨s₀, initial, run.mono weaker⟩

/-! ## Induction -/

variable {I : σ → Prop}

/-- A property kept by every admitted step is kept by every admitted run. -/
theorem RunsTo.invariant (kept : ∀ t a t', I t → ok t a → M.step t a = some t' → I t')
    (run : M.RunsTo ok s s') (start : I s) : I s' := by
  induction run with
  | refl => exact start
  | tail _ last ih =>
    obtain ⟨a, admitted, taken⟩ := last
    exact kept _ a _ ih admitted taken

/-- A property of initial states kept by every admitted step holds wherever an admitted
run leads. -/
theorem ReachableUnder.invariant (initially : ∀ t, M.Init t → I t)
    (kept : ∀ t a t', I t → ok t a → M.step t a = some t' → I t')
    (reached : M.ReachableUnder ok s) : I s := by
  obtain ⟨s₀, initial, run⟩ := reached
  exact run.invariant kept (initially s₀ initial)

variable {schedule : List α}

/-- Where, within an invariant, a step keeps a property exactly when it meets the side condition,
the property holds throughout a schedule exactly when every step meets it. -/
theorem throughout_iff_meets_within {P : σ → Prop}
    (kept : ∀ t a t', I t → M.step t a = some t' → I t')
    (exactly : ∀ t a t', I t → P t → M.step t a = some t' → (P t' ↔ ok t a))
    (settled : ∀ t a, M.step t a = none → ok t a) (inv : I s) (start : P s) :
    M.Throughout P s schedule ↔ M.Meets ok s schedule := by
  induction schedule generalizing s with
  | nil => exact iff_of_true start trivial
  | cons a schedule ih =>
    rw [Throughout, Meets, and_iff_right start]
    cases taken : M.step s a with
    | none => exact iff_of_true trivial ⟨settled s a taken, trivial⟩
    | some next =>
      have inv' := kept s a next inv taken
      have holds_iff := exactly s a next inv start taken
      dsimp only
      constructor
      · intro throughout
        have holds : P next := by
          cases schedule with
          | nil => exact throughout
          | cons b rest => exact throughout.1
        exact ⟨holds_iff.mp holds, (ih inv' holds).mp throughout⟩
      · rintro ⟨admitted, later⟩
        exact (ih inv' (holds_iff.mpr admitted)).mpr later

/-- Where a step keeps a property exactly when it meets the side condition, the property holds
throughout a schedule exactly when every step meets it. -/
theorem throughout_iff_meets {P : σ → Prop}
    (exactly : ∀ t a t', P t → M.step t a = some t' → (P t' ↔ ok t a))
    (settled : ∀ t a, M.step t a = none → ok t a) (start : P s) :
    M.Throughout P s schedule ↔ M.Meets ok s schedule :=
  throughout_iff_meets_within (I := fun _ => True) (fun _ _ _ _ _ => trivial)
    (fun t a t' _ => exactly t a t') settled trivial start

/-- Two side conditions that agree within an invariant are met by the same schedules. -/
theorem meets_iff_meets_within (kept : ∀ t a t', I t → ok' t a → M.step t a = some t' → I t')
    (agree : ∀ t a, I t → (ok t a ↔ ok' t a)) (inv : I s) :
    M.Meets ok s schedule ↔ M.Meets ok' s schedule := by
  induction schedule generalizing s with
  | nil => exact Iff.rfl
  | cons a schedule ih =>
    rw [Meets, Meets, agree s a inv]
    refine and_congr_right fun admitted => ?_
    cases taken : M.step s a with
    | none => exact Iff.rfl
    | some next => exact ih (kept s a next inv admitted taken)

/-! ## Executions -/

/-- An execution whose labels meet the side condition is a run under it. -/
theorem runsTo_of_exec (meets : M.Meets ok s schedule) (executed : M.exec s schedule = some s') :
    M.RunsTo ok s s' := by
  induction schedule generalizing s with
  | nil =>
    obtain rfl : s = s' := by simpa [exec] using executed
    exact RunsTo.refl s
  | cons a schedule ih =>
    rw [exec, Option.bind_eq_some_iff] at executed
    obtain ⟨next, taken, rest⟩ := executed
    obtain ⟨admitted, later⟩ := meets
    rw [taken] at later
    exact RunsTo.head admitted taken (ih later rest)

/-- A property that holds throughout a schedule holds where it ends. -/
theorem Throughout.of_exec {P : σ → Prop} (throughout : M.Throughout P s schedule)
    (executed : M.exec s schedule = some s') : P s' := by
  induction schedule generalizing s with
  | nil =>
    obtain rfl : s = s' := by simpa [exec] using executed
    exact throughout
  | cons a schedule ih =>
    rw [exec, Option.bind_eq_some_iff] at executed
    obtain ⟨next, taken, rest⟩ := executed
    obtain ⟨-, later⟩ := throughout
    rw [taken] at later
    exact ih later rest

theorem meets_always (s : σ) (schedule : List α) : M.Meets Always s schedule := by
  induction schedule generalizing s with
  | nil => trivial
  | cons a schedule ih =>
    refine ⟨trivial, ?_⟩
    cases M.step s a with
    | none => trivial
    | some next => exact ih next

/-- Any execution is an unconditional run. -/
theorem runsTo_always_of_exec (executed : M.exec s schedule = some s') : M.RunsTo Always s s' :=
  runsTo_of_exec (meets_always s schedule) executed

/-- An execution from an initial state ends in a reachable one. -/
theorem reachable_of_exec (initial : M.Init s) (executed : M.exec s schedule = some s') :
    M.Reachable s' :=
  ⟨s, initial, runsTo_always_of_exec executed⟩

/-- A decidable side condition can be checked along a schedule. -/
instance decidableMeets [admits : ∀ t a, Decidable (ok t a)] :
    ∀ s schedule, Decidable (M.Meets ok s schedule)
  | _, [] => .isTrue trivial
  | s, a :: schedule =>
    match admits s a with
    | .isFalse refused => .isFalse fun meets => refused meets.1
    | .isTrue admitted =>
      match taken : M.step s a with
      | none => .isTrue ⟨admitted, by rw [taken]; trivial⟩
      | some s' =>
        match decidableMeets s' schedule with
        | .isFalse refused => .isFalse fun meets => refused (by simpa [taken] using meets.2)
        | .isTrue later => .isTrue ⟨admitted, by rw [taken]; exact later⟩

theorem Meets.mono (weaker : ∀ t a, ok t a → ok' t a) (meets : M.Meets ok s schedule) :
    M.Meets ok' s schedule := by
  induction schedule generalizing s with
  | nil => trivial
  | cons a schedule ih =>
    obtain ⟨admitted, later⟩ := meets
    refine ⟨weaker s a admitted, ?_⟩
    cases taken : M.step s a with
    | none => trivial
    | some next => exact ih (by simpa [taken] using later)

/-- Two executions in a row are one execution. -/
theorem exec_append {first second : List α} (left : M.exec s first = some s')
    (right : M.exec s' second = some s'') : M.exec s (first ++ second) = some s'' := by
  induction first generalizing s with
  | nil =>
    obtain rfl : s = s' := by simpa [exec] using left
    exact right
  | cons a first ih =>
    rw [exec, Option.bind_eq_some_iff] at left
    obtain ⟨next, taken, rest⟩ := left
    rw [List.cons_append, exec, taken]
    exact ih rest

theorem exec_singleton {a : α} (taken : M.step s a = some s') : M.exec s [a] = some s' := by
  rw [exec, taken]
  rfl

end Machine

end OutpostPi.Lib
