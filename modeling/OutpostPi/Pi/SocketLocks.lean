import OutpostPi.Lib.SocketPath

/-!
# The lock of a working directory and the election of the leader

`acquireCwdLock` and `joinOrLead` both bind a server to a path, and both remove a file that no
one answers on before they bind again. The probe, the removal and the second bind are separate
calls.

`locks_exclusive` says that neither has two holders in any run in which no removed file belongs
to a live server. `exists_two_holders` is a run of each in which two processes probe the file of
a dead one, and the second removes the file that the first has bound in the meantime.
-/

set_option autoImplicit false

namespace OutpostPi.Pi

open OutpostPi.Lib OutpostPi.Lib.Machine

/-! ## The lock of a working directory -/

/-- Where a call to `acquireCwdLock` stands. -/
inductive CwdLockStage where
  | idle
  | tryBind
  | listen
  | tryConnect
  /-- `removeStaleSock` looks at the file, and removes it. -/
  | statStale
  | unlinkStale
  | tryBindAgain
  | listenAgain
  | acquired
  | refused
  deriving DecidableEq

namespace CwdLockStage

/-- The operation that a stage of the lock waits for. -/
def call : CwdLockStage → Option SocketCall
  | .idle => none
  | .tryBind => some .bind
  | .listen => some .listen
  | .tryConnect => some .connect
  | .statStale => some .lstat
  | .unlinkStale => some .unlink
  | .tryBindAgain => some .bind
  | .listenAgain => some .listen
  | .acquired => none
  | .refused => none

/-- Where the lock goes on after its answer. -/
def resume (stage : CwdLockStage) (answer : Bool) : CwdLockStage :=
  match stage with
  | .tryBind => if answer then .listen else .tryConnect
  | .listen => .acquired
  | .tryConnect => if answer then .refused else .statStale
  | .statStale => if answer then .unlinkStale else .tryBindAgain
  | .unlinkStale => .tryBindAgain
  -- a failure here is a race with another process, and the lock counts as held
  | .tryBindAgain => if answer then .listenAgain else .refused
  | .listenAgain => .acquired
  | .idle => .idle
  | .acquired => .acquired
  | .refused => .refused

/-- The socket at the path is the own one. -/
def bound : CwdLockStage → Bool
  | .listen => true
  | .listenAgain => true
  | .acquired => true
  | _ => false

end CwdLockStage

/-- The lock of a working directory. -/
def acquireCwdLock : SocketProgram CwdLockStage where
  idle := .idle
  start := .tryBind
  call := CwdLockStage.call
  resume := CwdLockStage.resume
  bound := CwdLockStage.bound
  holds := fun stage => stage = .acquired
  bound_of_holds := by
    intro stage holds
    rw [of_decide_eq_true holds]
    rfl
  unbound_idle := rfl
  unbound_start := rfl
  bound_of_listen := by
    intro stage listens
    cases stage with
    | listen => rfl
    | listenAgain => rfl
    | _ => cases listens
  bound_resume := by
    intro stage next answer called bound
    cases stage with
    | tryBind =>
      cases answer with
      | true => exact Or.inr ⟨(Option.some.inj called).symm, rfl⟩
      | false => cases bound
    | tryBindAgain =>
      cases answer with
      | true => exact Or.inr ⟨(Option.some.inj called).symm, rfl⟩
      | false => cases bound
    | listen => exact Or.inl rfl
    | listenAgain => exact Or.inl rfl
    | tryConnect => cases answer <;> cases bound
    | statStale => cases answer <;> cases bound
    | unlinkStale => cases bound
    | _ => cases called

/-! ## The election -/

/-- How often the election is tried. -/
def maxAttempts : Nat := 20

/-- Where a call to `joinOrLead` stands, with the number of the attempt. -/
inductive ElectionStage where
  | idle
  | existsSync (attempt : Nat)
  | tryConnect (attempt : Nat)
  | statStale (attempt : Nat)
  | unlinkStale (attempt : Nat)
  | tryBind (attempt : Nat)
  | listen
  | leader
  | follower
  /-- `leader election failed` after the last attempt. -/
  | failed
  deriving DecidableEq

namespace ElectionStage

/-- The attempt after a delay, unless the last one has failed. -/
def nextAttempt (attempt : Nat) : ElectionStage :=
  if attempt + 1 < maxAttempts then .existsSync (attempt + 1) else .failed

/-- The operation that a stage of the election waits for. -/
def call : ElectionStage → Option SocketCall
  | .idle => none
  | .existsSync _ => some .existsSync
  | .tryConnect _ => some .connect
  | .statStale _ => some .lstat
  | .unlinkStale _ => some .unlink
  | .tryBind _ => some .bind
  | .listen => some .listen
  | .leader => none
  | .follower => none
  | .failed => none

/-- Where the election goes on after its answer. -/
def resume (stage : ElectionStage) (answer : Bool) : ElectionStage :=
  match stage with
  | .existsSync attempt => if answer then .tryConnect attempt else .tryBind attempt
  | .tryConnect attempt => if answer then .follower else .statStale attempt
  | .statStale attempt => if answer then .unlinkStale attempt else .tryBind attempt
  | .unlinkStale attempt => .tryBind attempt
  | .tryBind attempt => if answer then .listen else nextAttempt attempt
  | .listen => .leader
  | .idle => .idle
  | .leader => .leader
  | .follower => .follower
  | .failed => .failed

/-- The socket at the path is the own one. -/
def bound : ElectionStage → Bool
  | .listen => true
  | .leader => true
  | _ => false

theorem unbound_nextAttempt (attempt : Nat) : (nextAttempt attempt).bound = false := by
  rw [nextAttempt]
  split <;> rfl

end ElectionStage

/-- The election of the leader. -/
def joinOrLead : SocketProgram ElectionStage where
  idle := .idle
  start := .existsSync 0
  call := ElectionStage.call
  resume := ElectionStage.resume
  bound := ElectionStage.bound
  holds := fun stage => stage = .leader
  bound_of_holds := by
    intro stage holds
    rw [of_decide_eq_true holds]
    rfl
  unbound_idle := rfl
  unbound_start := rfl
  bound_of_listen := by
    intro stage listens
    cases stage with
    | listen => rfl
    | _ => cases listens
  bound_resume := by
    intro stage next answer called bound
    cases stage with
    | tryBind attempt =>
      cases answer with
      | true => exact Or.inr ⟨(Option.some.inj called).symm, rfl⟩
      | false => exact absurd bound (by simp [ElectionStage.resume, ElectionStage.unbound_nextAttempt])
    | listen => exact Or.inl rfl
    | existsSync attempt => cases answer <;> cases bound
    | tryConnect attempt => cases answer <;> cases bound
    | statStale attempt => cases answer <;> cases bound
    | unlinkStale attempt => cases bound
    | _ => cases called

/-! ## At most one holder -/

/-- In every run in which each removed file belongs to no live server, at most one live process
believes that it has the lock of the directory, and at most one that it leads. -/
theorem locks_exclusive (process other : Nat) :
    (∀ w, acquireCwdLock.machine.ReachableUnder acquireCwdLock.SafeUnlink w →
      acquireCwdLock.Holder w process → acquireCwdLock.Holder w other → process = other) ∧
    ∀ w, joinOrLead.machine.ReachableUnder joinOrLead.SafeUnlink w →
      joinOrLead.Holder w process → joinOrLead.Holder w other → process = other :=
  ⟨fun _ reached => SocketProgram.exclusive_of_safe_unlinks reached,
    fun _ reached => SocketProgram.exclusive_of_safe_unlinks reached⟩

/-- No file at the path, and nothing called. -/
def unusedPath {κ : Type} (program : SocketProgram κ) : SocketWorld κ :=
  ⟨none, fun _ => true, fun _ => none, fun _ => program.idle⟩

/-- A process begins and makes a number of calls. -/
def calls (process count : Nat) : List SocketAction :=
  .begin process :: List.replicate count (.advance process)

/-- Process `0` takes the path and dies, and process `1` takes it over. -/
def takenOver (first second : Nat) : List SocketAction :=
  calls 0 first ++ [.die 0] ++ calls 1 second

theorem locks_exclusive_taken_over :
    (∃ w, acquireCwdLock.machine.ReachableUnder acquireCwdLock.SafeUnlink w ∧
      acquireCwdLock.Holder w 1 ∧ ∀ other, acquireCwdLock.Holder w other → 1 = other) ∧
    ∃ w, joinOrLead.machine.ReachableUnder joinOrLead.SafeUnlink w ∧
      joinOrLead.Holder w 1 ∧ ∀ other, joinOrLead.Holder w other → 1 = other := by
  constructor
  · have meets : acquireCwdLock.machine.Meets acquireCwdLock.SafeUnlink
        (unusedPath acquireCwdLock) (takenOver 2 6) := by decide +kernel
    have ran : (acquireCwdLock.machine.exec (unusedPath acquireCwdLock) (takenOver 2 6)).any
        (fun w => decide (acquireCwdLock.Holder w 1)) = true := by decide +kernel
    obtain ⟨w, executed, held⟩ := (Option.any_eq_true _ _).mp ran
    have reached : acquireCwdLock.machine.ReachableUnder acquireCwdLock.SafeUnlink w :=
      ⟨_, fun _ => ⟨rfl, rfl⟩, runsTo_of_exec meets executed⟩
    have holds := of_decide_eq_true held
    exact ⟨w, reached, holds, fun other => (locks_exclusive 1 other).1 w reached holds⟩
  · have meets : joinOrLead.machine.Meets joinOrLead.SafeUnlink
        (unusedPath joinOrLead) (takenOver 3 6) := by decide +kernel
    have ran : (joinOrLead.machine.exec (unusedPath joinOrLead) (takenOver 3 6)).any
        (fun w => decide (joinOrLead.Holder w 1)) = true := by decide +kernel
    obtain ⟨w, executed, held⟩ := (Option.any_eq_true _ _).mp ran
    have reached : joinOrLead.machine.ReachableUnder joinOrLead.SafeUnlink w :=
      ⟨_, fun _ => ⟨rfl, rfl⟩, runsTo_of_exec meets executed⟩
    have holds := of_decide_eq_true held
    exact ⟨w, reached, holds, fun other => (locks_exclusive 1 other).2 w reached holds⟩

/-- Process `0` dies with the path. Processes `1` and `2` both come as far as its removal, and
each then removes the file, binds and listens. -/
def removedTwice (first probes : Nat) : List SocketAction :=
  calls 0 first ++ [.die 0] ++ calls 1 probes ++ calls 2 probes ++
    List.replicate 3 (.advance 1) ++ List.replicate 3 (.advance 2)

theorem exists_two_holders :
    (∃ w, acquireCwdLock.machine.Reachable w ∧ acquireCwdLock.Holder w 1 ∧
      acquireCwdLock.Holder w 2) ∧
    ∃ w, joinOrLead.machine.Reachable w ∧ joinOrLead.Holder w 1 ∧ joinOrLead.Holder w 2 := by
  constructor
  · have ran : (acquireCwdLock.machine.exec (unusedPath acquireCwdLock) (removedTwice 2 3)).any
        (fun w => decide (acquireCwdLock.Holder w 1 ∧ acquireCwdLock.Holder w 2)) = true := by
      decide +kernel
    obtain ⟨w, executed, held⟩ := (Option.any_eq_true _ _).mp ran
    have reached := reachable_of_exec (M := acquireCwdLock.machine) (fun _ => ⟨rfl, rfl⟩) executed
    exact ⟨w, reached, of_decide_eq_true held⟩
  · have ran : (joinOrLead.machine.exec (unusedPath joinOrLead) (removedTwice 3 3)).any
        (fun w => decide (joinOrLead.Holder w 1 ∧ joinOrLead.Holder w 2)) = true := by
      decide +kernel
    obtain ⟨w, executed, held⟩ := (Option.any_eq_true _ _).mp ran
    have reached := reachable_of_exec (M := joinOrLead.machine) (fun _ => ⟨rfl, rfl⟩) executed
    exact ⟨w, reached, of_decide_eq_true held⟩

end OutpostPi.Pi
