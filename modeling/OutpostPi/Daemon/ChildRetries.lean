import OutpostPi.Daemon.Supervisor

/-!
# The retries of a child

What happens to the child of one daemon while no request concerns it. The `RpcChild` is that of
the supervisor with two more things: the flag that makes the next spawn omit `--continue`, and
the spawns so far. `retries_iff` says that every crash is retried and every fresh session is
started as long as no spawn fails: a child whose spawn has failed keeps its handle, so that the
retry spawns nothing (`retry_ignored`) and `stop` would wait for an exit that cannot come.
-/

set_option autoImplicit false

namespace OutpostPi.Daemon

open OutpostPi.Lib

/-! ## The child -/

/-- An `RpcChild` with the slot of the supervisor. -/
structure Retried extends Slot Unit where
  forceFreshSessionOnNextSpawn : Bool
  /-- The pending restart timers. -/
  timers : List Nat
  nextTimer : Nat
  /-- For each process that was spawned, whether it was given `--continue`. -/
  spawns : List Bool

namespace Retried

/-- `RpcChild.spawn`. -/
def spawn (d : Retried) : Retried :=
  if d.process = .absent then
    { d with
      toSlot := d.toSlot.spawn
      forceFreshSessionOnNextSpawn := false
      spawns := d.spawns ++ [!d.forceFreshSessionOnNextSpawn] }
  else d

/-- What a shutdown awaits: `RpcChild.stop` resolves at once only where there is no child. -/
def stopWaits (d : Retried) : Bool := d.process ≠ .absent

/-- A process that has been spawned, or is being spawned, has not come to its end. -/
def alive (d : Retried) : Bool := d.process = .live

/-- `_onChildExit`. -/
def onChildExit (d : Retried) (isCrash fresh : Bool) : Retried :=
  if !isCrash then d
  else if fresh then
    { d with toSlot := { d.toSlot with restartAttempt := 0 }.noteRestart }.spawn
  else if restartBackoffs ≤ d.restartAttempt then d
  else
    { d with
      restartTimer := some d.nextTimer
      timers := d.timers ++ [d.nextTimer]
      nextTimer := d.nextTimer + 1 }

/-- `_onExit`. -/
def onExit (d : Retried) (exit : Exit) : Retried :=
  let isCrash : Bool := !d.stopping && exit != Exit.clean
  { d with
    process := .absent
    state := if isCrash then .crashed else .stopped
    forceFreshSessionOnNextSpawn := exit == Exit.fresh || d.forceFreshSessionOnNextSpawn
    }.onChildExit isCrash (exit == Exit.fresh)

/-- The handler of `error`. -/
def onError (d : Retried) : Retried :=
  { d with process := .failed, state := .crashed }.onChildExit true false

/-- The callback of a restart timer. -/
def onTimer (d : Retried) (timer : Nat) : Retried :=
  { d with
    toSlot := { d.toSlot with
      restartTimer := none, restartAttempt := d.restartAttempt + 1 }.noteRestart
    timers := d.timers.filter fun other => other ≠ timer }.spawn

end Retried

/-! ## Runs -/

/-- How a spawned process ends, and the timers. -/
inductive Outcome
  | exit (exit : Exit)
  /-- The spawn fails: there is no process, and no `exit` follows. -/
  | error
  | timer (timer : Nat)
  deriving DecidableEq

def Retried.step (d : Retried) : Outcome → Option Retried
  | .exit exit => if d.process = .live then some (d.onExit exit) else none
  | .error => if d.process = .live then some d.onError else none
  | .timer timer => if timer ∈ d.timers then some (d.onTimer timer) else none

/-- The child after `_spawnEntry`. -/
def Retried.start : Retried := Retried.spawn ⟨Slot.new (), false, [], 0, []⟩

def retries : Machine Retried Outcome where
  Init d := d = .start
  step := Retried.step

/-! ## The supervisor of one daemon -/

/-- The supervisor with one registered daemon and no request. -/
def Retried.supervised (d : Retried) : State Unit Unit where
  registry := [()]
  jobs := []
  cronJobs := []
  slots := [d.toSlot]
  children := .set .empty () ⟨0, 0⟩
  nextPosition := 1
  timers := d.timers.map fun timer => (timer, 0)
  nextTimer := d.nextTimer
  calls := []
  shutdowns := []
  shuttingDown := false
  stopped := false

def Outcome.event : Outcome → Event Unit Unit
  | .exit how => .exit 0 how
  | .error => .error 0
  | .timer fired => .timer fired

theorem supervised_start : State.started [()] [] = Retried.start.supervised := rfl

/-- Nothing but the slot shows what was spawned. -/
theorem Retried.supervised_spawn (d : Retried) :
    d.spawn.supervised = { d.supervised with slots := [d.toSlot.spawn] } := by
  rw [Retried.spawn, Slot.spawn]
  split <;> rfl

/-- `_onChildExit` finds the only slot. -/
theorem onChildExit_supervised (d : Retried) (isCrash fresh : Bool) :
    d.supervised.onChildExit () isCrash fresh = (d.onChildExit isCrash fresh).supervised := by
  have stored : d.supervised.slotOf () = some 0 := rfl
  have here : d.supervised.slots[0]? = some d.toSlot := rfl
  rw [State.onChildExit, if_neg (by simp [Retried.supervised]), stored]
  simp only [Retried.onChildExit, here, State.modifySlot]
  split
  · rfl
  · split
    · rw [Retried.supervised_spawn]
      rfl
    · split
      · rfl
      · simp [Retried.supervised]

theorem emitExit_supervised (d : Retried) (isCrash fresh : Bool) :
    d.supervised.emitExit 0 () isCrash fresh = (d.onChildExit isCrash fresh).supervised := by
  rw [State.emitExit, onChildExit_supervised]
  rfl

/-- A pending timer is found. -/
theorem find?_timers (d : Retried) (timer : Nat) :
    (d.supervised.timers.find? fun other => decide (other.1 = timer)) =
      if timer ∈ d.timers then some (timer, 0) else none := by
  have timers : d.supervised.timers = d.timers.map fun timer => (timer, 0) := rfl
  rw [timers]
  generalize d.timers = timers
  induction timers with
  | nil => rfl
  | cons first timers ih =>
    by_cases same : first = timer
    · simp [same]
    · simpa [same, Ne.symm same] using ih

theorem restartSlot_supervised (d : Retried) (timer : Nat) :
    d.supervised.restartSlot timer 0 = (d.onTimer timer).supervised := by
  have timers : (d.timers.map fun timer => (timer, 0)).filter
      (fun other => decide (other.1 ≠ timer)) =
        (d.timers.filter fun other => other ≠ timer).map fun timer => (timer, 0) := by
    rw [List.filter_map]
    rfl
  rw [Retried.onTimer, Retried.supervised_spawn]
  simp only [State.restartSlot, State.modifySlot, Retried.supervised, timers,
    List.getElem?_cons_zero, List.set_cons_zero]

/-- The child does what that of the supervisor does. -/
theorem supervised_step (d : Retried) (outcome : Outcome) :
    d.supervised.step outcome.event = (d.step outcome).map Retried.supervised := by
  have here : d.supervised.slots[0]? = some d.toSlot := rfl
  cases outcome with
  | exit how =>
    simp only [Outcome.event, State.step, here, Retried.step]
    split
    · rw [Option.map_some, Retried.onExit, ← emitExit_supervised]
      rfl
    · rfl
  | error =>
    simp only [Outcome.event, State.step, here, Retried.step]
    split
    · rw [Option.map_some, Retried.onError, ← emitExit_supervised]
      rfl
    · rfl
  | timer timer =>
    simp only [Outcome.event, State.step, find?_timers, Retried.step]
    by_cases pending : timer ∈ d.timers
    · simp only [pending, if_true, Option.map_some, restartSlot_supervised]
    · simp [pending]

/-! ## Serving the daemon -/

/-- What a step has to do for its daemon. -/
structure Served (d : Retried) (outcome : Outcome) (d' : Retried) : Prop where
  /-- A crash and a failed spawn leave one restart timer. -/
  retry : outcome = .exit .crash ∨ outcome = .error → d.restartAttempt < restartBackoffs →
    ∃ timer, d'.timers = [timer] ∧ d'.restartTimer = some timer
  /-- When it fires, a process is spawned that continues the session. -/
  fires : ∀ timer, outcome = .timer timer →
    d'.spawns = d.spawns ++ [true] ∧ d'.restartAttempt = d.restartAttempt + 1
  /-- A fresh session is spawned at once and uses up no retry. -/
  fresh : outcome = .exit .fresh → d'.spawns = d.spawns ++ [false] ∧
    d'.restartAttempt ≤ d.restartAttempt ∧ d'.timers = d.timers
  /-- A spawn has one of these causes. -/
  only : (∀ timer, outcome ≠ .timer timer) → outcome ≠ .exit .fresh → d'.spawns = d.spawns
  /-- `stop` waits for a process only. -/
  stop : d'.stopWaits = true → d'.alive = true

/-- The side condition that every step of a run serves the daemon. -/
def Serves (d : Retried) (outcome : Outcome) : Prop :=
  ∀ d', d.step outcome = some d' → Served d outcome d'

/-- The side condition that no spawn fails. -/
def Spawns (d : Retried) (outcome : Outcome) : Prop :=
  outcome = .error → d.step outcome = none

instance (d : Retried) (outcome : Outcome) : Decidable (Spawns d outcome) :=
  inferInstanceAs (Decidable (_ → _))

/-! ## The child while no spawn has failed -/

/-- While a process lives no timer is pending, and otherwise at most one. -/
structure Retried.Sound (d : Retried) : Prop where
  continues : d.forceFreshSessionOnNextSpawn = false
  unasked : d.stopping = false
  idle : d.process = .live → d.timers = []
  single : d.process = .absent → ∀ timer ∈ d.timers, d.timers = [timer]
  handle : d.process ≠ .failed

namespace Retried

variable {d d' : Retried}

theorem sound_start : start.Sound := by
  constructor <;> decide

/-- A process exits for good. -/
theorem onExit_clean (d : Retried) : d.onExit .clean =
    { d with process := .absent, state := .stopped } := by
  simp [onExit, onChildExit]

theorem onExit_fresh (unasked : d.stopping = false) : d.onExit .fresh =
    { d with
      toSlot := { d.toSlot with
        process := .live
        state := .running
        stopping := false
        restartCount := d.restartCount + 1
        restartAttempt := 0 }
      forceFreshSessionOnNextSpawn := false
      spawns := d.spawns ++ [false] } := by
  simp [onExit, onChildExit, unasked, spawn, Slot.spawn, Slot.noteRestart]

/-- A process crashes, and is retried unless the retries are used up. -/
theorem onExit_crash (unasked : d.stopping = false) : d.onExit .crash =
    if restartBackoffs ≤ d.restartAttempt then { d with process := .absent, state := .crashed }
    else { d with
      toSlot := { d.toSlot with
        process := .absent, state := .crashed, restartTimer := some d.nextTimer }
      timers := d.timers ++ [d.nextTimer]
      nextTimer := d.nextTimer + 1 } := by
  have other : (Exit.crash == Exit.fresh) = false := rfl
  simp [onExit, onChildExit, unasked, other]

theorem onTimer_of_absent (absent : d.process = .absent) (timer : Nat) : d.onTimer timer =
    { d with
      toSlot := { d.toSlot with
        process := .live
        state := .running
        stopping := false
        restartCount := d.restartCount + 1
        restartTimer := none
        restartAttempt := d.restartAttempt + 1 }
      forceFreshSessionOnNextSpawn := false
      timers := d.timers.filter fun other => other ≠ timer
      spawns := d.spawns ++ [!d.forceFreshSessionOnNextSpawn] } := by
  simp [onTimer, spawn, Slot.spawn, Slot.noteRestart, absent]

/-- The handle of a child that could not be spawned stays. -/
theorem process_onError (d : Retried) : d.onError.process = .failed := by
  simp only [onError, onChildExit, Bool.not_true, Bool.false_eq_true, if_false]
  split <;> rfl

/-- A step without a failed spawn serves its daemon and keeps the invariant. -/
theorem Sound.step {outcome : Outcome} (sound : d.Sound) (ok : Spawns d outcome)
    (taken : d.step outcome = some d') : d'.Sound ∧ Served d outcome d' := by
  cases outcome with
  | exit exit =>
    rw [Retried.step, Option.ite_none_right_eq_some, Option.some.injEq] at taken
    obtain ⟨living, rfl⟩ := taken
    have idle := sound.idle living
    cases exit with
    -- a clean exit ends the daemon: nothing is left to retry
    | clean =>
      rw [onExit_clean]
      constructor
      · exact ⟨sound.continues, sound.unasked, fun alive => (nomatch alive),
          fun _ timer mem => by simp [idle] at mem, fun failed => (nomatch failed)⟩
      · exact ⟨fun crash => by simp at crash, fun timer fired => (nomatch fired),
          fun recycled => (nomatch recycled), fun _ _ => rfl,
          fun waits => by simp [stopWaits] at waits⟩
    | fresh =>
      rw [onExit_fresh sound.unasked]
      constructor
      · exact ⟨rfl, rfl, fun _ => idle, fun absent => (nomatch absent),
          fun failed => (nomatch failed)⟩
      · exact ⟨fun crash => by simp at crash, fun timer fired => (nomatch fired),
          fun _ => ⟨rfl, Nat.zero_le _, rfl⟩, fun _ other => absurd rfl other, fun _ => rfl⟩
    | crash =>
      rw [onExit_crash sound.unasked]
      split
      -- a crash with no retry left is final
      · next used =>
        constructor
        · exact ⟨sound.continues, sound.unasked, fun alive => (nomatch alive),
            fun _ timer mem => by simp [idle] at mem, fun failed => (nomatch failed)⟩
        · exact ⟨fun _ left => absurd used (Nat.not_le_of_lt left),
            fun timer fired => (nomatch fired), fun recycled => (nomatch recycled), fun _ _ => rfl,
            fun waits => by simp [stopWaits] at waits⟩
      · rw [idle]
        constructor
        · exact ⟨sound.continues, sound.unasked, fun alive => (nomatch alive),
            fun _ timer mem => by simpa [eq_comm] using mem, fun failed => (nomatch failed)⟩
        · exact ⟨fun _ _ => ⟨d.nextTimer, rfl, rfl⟩, fun timer fired => (nomatch fired),
            fun recycled => (nomatch recycled), fun _ _ => rfl,
            fun waits => by simp [stopWaits] at waits⟩
  | error => exact nomatch (ok rfl).symm.trans taken
  | timer timer =>
    rw [Retried.step, Option.ite_none_right_eq_some, Option.some.injEq] at taken
    obtain ⟨pending, rfl⟩ := taken
    -- a timer that is pending belongs to a child that is gone
    have absent : d.process = .absent := by
      cases process : d.process with
      | absent => rfl
      | live => simp [sound.idle process] at pending
      | failed => exact absurd process sound.handle
    rw [onTimer_of_absent absent, sound.continues, sound.single absent timer pending]
    constructor
    · exact ⟨rfl, rfl, fun _ => by simp, fun absent => (nomatch absent),
        fun failed => (nomatch failed)⟩
    · exact ⟨fun crash => by simp at crash, fun _ _ => ⟨rfl, rfl⟩,
        fun recycled => (nomatch recycled), fun other => absurd rfl (other timer), fun _ => rfl⟩

/-- Under the invariant a step serves its daemon exactly when it is no failed spawn. -/
theorem Sound.serves_iff (sound : d.Sound) (outcome : Outcome) :
    Serves d outcome ↔ Spawns d outcome := by
  constructor
  · rintro serves rfl
    cases taken : d.step .error with
    | none => rfl
    | some d' =>
      have waits := (serves d' taken).stop
      rw [Retried.step, Option.ite_none_right_eq_some, Option.some.injEq] at taken
      obtain ⟨-, rfl⟩ := taken
      simp [stopWaits, alive, process_onError] at waits
  · exact fun ok d' taken => (sound.step ok taken).2

end Retried

/-! ## Runs -/

/-- Every crash is retried and `stop` always has an exit to wait for in exactly the runs in
which no spawn fails. -/
theorem retries_iff (schedule : List Outcome) :
    retries.Meets Serves .start schedule ↔ retries.Meets Spawns .start schedule :=
  Machine.meets_iff_meets_within (fun _ _ _ sound ok taken => (sound.step ok taken).1)
    (fun _ outcome sound => sound.serves_iff outcome) Retried.sound_start

/-- A failed spawn is never retried. The timer fires and spawns nothing, and `stop` waits for
an exit although no process lives. -/
theorem retry_ignored :
    ∃ d d', retries.exec .start [.error] = some d ∧ d.stopWaits = true ∧ d.alive = false ∧
      d.timers = [0] ∧ d.step (.timer 0) = some d' ∧ d'.spawns = d.spawns ∧ d'.timers = [] ∧
      ¬ retries.Meets Serves .start [.error] := by
  refine ⟨_, _, rfl, rfl, rfl, rfl, rfl, rfl, rfl, fun serves => ?_⟩
  have waits := (serves.1 _ rfl).stop rfl
  cases waits

end OutpostPi.Daemon
