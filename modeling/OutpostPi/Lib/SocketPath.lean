import Mathlib.Logic.Function.Basic
import OutpostPi.Lib.Machine

/-!
# Locks made of a socket path

Any number of processes run one program over the path of a Unix domain socket. A step of a
process is one system call: it looks at the path, connects to it, removes it, binds a server to
it or lets its server listen. A process can die between any two calls, and the file that it has
bound stays behind.

A `SocketProgram` carries the proof that it takes the lock only with a server of its own.
`exclusive_of_safe_unlinks` is the exclusion that this gives: as long as no process removes the
file of a live server, at most one live process has the lock.
-/

set_option autoImplicit false

namespace OutpostPi.Lib

universe u

/-- A system call on the path. -/
inductive SocketCall where
  | existsSync
  | connect
  | lstat
  | unlink
  | bind
  | listen
  deriving DecidableEq

/-- A program that waits for the answer of one call after another. -/
structure SocketProgram (κ : Type u) where
  /-- Nothing has been called. -/
  idle : κ
  /-- The program has just been called. -/
  start : κ
  /-- The call that the program makes next, absent when it has returned. -/
  call : κ → Option SocketCall
  /-- The program after the answer to its call. -/
  resume : κ → Bool → κ
  /-- The program has bound its server. -/
  bound : κ → Bool
  /-- The program has returned the lock. -/
  holds : κ → Bool
  bound_of_holds : ∀ k, holds k = true → bound k = true
  unbound_idle : bound idle = false
  unbound_start : bound start = false
  bound_of_listen : ∀ k, call k = some .listen → bound k = true
  /-- A server is bound by an answered call to `bind` only. -/
  bound_resume : ∀ k next answer, call k = some next → bound (resume k answer) = true →
    bound k = true ∨ next = .bind ∧ answer = true

/-- The path and the processes. -/
structure SocketWorld (κ : Type u) where
  /-- The process whose server was bound to the file at the path. -/
  file : Option Nat
  alive : Nat → Bool
  /-- The server of a process, and whether it listens. -/
  server : Nat → Option Bool
  control : Nat → κ

inductive SocketAction where
  /-- A process that has nothing under way calls the program. -/
  | begin (process : Nat)
  /-- A process makes its next system call. -/
  | advance (process : Nat)
  | die (process : Nat)

namespace SocketWorld

variable {κ : Type u}

/-- The file at the path belongs to a live process that still has its server. -/
def isBound (w : SocketWorld κ) : Bool :=
  w.file.any fun owner => w.alive owner && (w.server owner).isSome

/-- A live process listens on the file at the path. -/
def isServed (w : SocketWorld κ) : Bool :=
  w.file.any fun owner => w.alive owner && w.server owner == some true

/-- A system call of a process, with its answer. -/
def perform (w : SocketWorld κ) (self : Nat) : SocketCall → SocketWorld κ × Bool
  | .existsSync => (w, w.file.isSome)
  | .connect => (w, w.isServed)
  | .lstat => (w, w.file.isSome)
  | .unlink => ({ w with file := none }, true)
  | .bind =>
    if w.file.isSome then (w, false)
    else ({ w with file := some self, server := Function.update w.server self (some false) }, true)
  | .listen => ({ w with server := Function.update w.server self (some true) }, true)

def setControl (w : SocketWorld κ) (process : Nat) (control : κ) : SocketWorld κ :=
  { w with control := Function.update w.control process control }

def died (w : SocketWorld κ) (process : Nat) : SocketWorld κ :=
  { w with alive := Function.update w.alive process false }

theorem control_setControl_self (w : SocketWorld κ) (process : Nat) (control : κ) :
    (w.setControl process control).control process = control :=
  Function.update_self ..

theorem control_setControl_of_ne (w : SocketWorld κ) {process other : Nat}
    (differs : other ≠ process) (control : κ) :
    (w.setControl process control).control other = w.control other :=
  Function.update_of_ne differs ..

@[simp] theorem control_perform (w : SocketWorld κ) (self : Nat) (call : SocketCall) :
    (w.perform self call).1.control = w.control := by
  cases call with
  | bind =>
    rw [perform]
    split <;> rfl
  | _ => rfl

/-- The server that `bind` has made is there. -/
theorem server_of_bind (w : SocketWorld κ) (self : Nat)
    (answered : (w.perform self .bind).2 = true) :
    ((w.perform self .bind).1.server self).isSome = true := by
  rw [perform] at answered ⊢
  split
  · next taken =>
    rw [if_pos taken] at answered
    cases answered
  · change (Function.update w.server self (some false) self).isSome = true
    rw [Function.update_self]
    rfl

end SocketWorld

namespace SocketProgram

variable {κ : Type u} (program : SocketProgram κ)

def step (w : SocketWorld κ) : SocketAction → Option (SocketWorld κ)
  | .begin process =>
    if w.alive process && (program.call (w.control process)).isNone &&
        !program.holds (w.control process) then
      some (w.setControl process program.start)
    else none
  | .advance process =>
    if w.alive process then
      match program.call (w.control process) with
      | none => none
      | some call =>
        some ((w.perform process call).1.setControl process
          (program.resume (w.control process) (w.perform process call).2))
    else none
  | .die process => some (w.died process)

/-- The runs of the program. A file may be left at the path from before. -/
def machine : Machine (SocketWorld κ) SocketAction where
  Init := fun w => ∀ process, w.control process = program.idle ∧ w.server process = none
  step := program.step

/-- A live process that believes that it has the lock. -/
def Holder (w : SocketWorld κ) (process : Nat) : Prop :=
  w.alive process = true ∧ program.holds (w.control process) = true

instance (w : SocketWorld κ) (process : Nat) : Decidable (program.Holder w process) :=
  inferInstanceAs (Decidable (_ ∧ _))

/-- No file is removed whose server is bound by a live process. -/
def SafeUnlink (w : SocketWorld κ) : SocketAction → Prop
  | .advance process => program.call (w.control process) = some .unlink → w.isBound = false
  | _ => True

instance (w : SocketWorld κ) : ∀ action, Decidable (program.SafeUnlink w action)
  | .advance _ => inferInstanceAs (Decidable (_ → _))
  | .begin _ => isTrue trivial
  | .die _ => isTrue trivial

/-! ## Exclusion -/

/-- Every live server has its file at the path, and who has bound a server has one. -/
structure Pinned (w : SocketWorld κ) : Prop where
  file : ∀ process, w.alive process = true → (w.server process).isSome = true →
    w.file = some process
  server : ∀ process, program.bound (w.control process) = true →
    (w.server process).isSome = true

variable {program} {w w' : SocketWorld κ} {self process other : Nat}

theorem Pinned.setControl (pinned : program.Pinned w) {control : κ}
    (server : program.bound control = true → (w.server self).isSome = true) :
    program.Pinned (w.setControl self control) := by
  refine ⟨pinned.file, fun process bound => ?_⟩
  by_cases same : process = self
  · subst same
    rw [w.control_setControl_self] at bound
    exact server bound
  · rw [w.control_setControl_of_ne same] at bound
    exact pinned.server process bound

/-- A call other than `unlink` keeps the files of live servers at the path. -/
theorem Pinned.perform (pinned : program.Pinned w) {call : SocketCall}
    (living : w.alive self = true) (listens : call = .listen → (w.server self).isSome = true)
    (safe : call = .unlink → w.isBound = false) : program.Pinned (w.perform self call).1 := by
  cases call with
  | existsSync => exact pinned
  | connect => exact pinned
  | lstat => exact pinned
  | unlink =>
    refine ⟨fun process alive serves => ?_, pinned.server⟩
    have found := pinned.file process alive serves
    have unbound := safe rfl
    rw [SocketWorld.isBound, found] at unbound
    change (w.alive process && (w.server process).isSome) = false at unbound
    rw [show w.alive process = true from alive, show (w.server process).isSome = true from serves]
      at unbound
    cases unbound
  | bind =>
    rw [SocketWorld.perform]
    split
    · exact pinned
    · next free =>
      -- the path is free, so no live process has a server yet
      constructor
      case file =>
        intro process alive serves
        by_cases same : process = self
        · rw [same]
        · change (Function.update w.server self (some false) process).isSome = true at serves
          rw [Function.update_of_ne same] at serves
          rw [pinned.file process alive serves] at free
          exact absurd rfl free
      case server =>
        intro process bound
        change (Function.update w.server self (some false) process).isSome = true
        by_cases same : process = self
        · rw [same, Function.update_self]
          rfl
        · rw [Function.update_of_ne same]
          exact pinned.server process bound
  | listen =>
    constructor
    case file =>
      intro process alive serves
      by_cases same : process = self
      · subst same
        exact pinned.file process alive (listens rfl)
      · change (Function.update w.server self (some true) process).isSome = true at serves
        rw [Function.update_of_ne same] at serves
        exact pinned.file process alive serves
    case server =>
      intro process bound
      change (Function.update w.server self (some true) process).isSome = true
      by_cases same : process = self
      · rw [same, Function.update_self]
        rfl
      · rw [Function.update_of_ne same]
        exact pinned.server process bound

theorem Pinned.died (pinned : program.Pinned w) : program.Pinned (w.died self) := by
  refine ⟨fun process alive serves => pinned.file process ?_ serves, pinned.server⟩
  change Function.update w.alive self false process = true at alive
  by_cases same : process = self
  · rw [same, Function.update_self] at alive
    cases alive
  · rwa [Function.update_of_ne same] at alive

theorem Pinned.step {action : SocketAction} (pinned : program.Pinned w)
    (safe : program.SafeUnlink w action) (taken : program.step w action = some w') :
    program.Pinned w' := by
  cases action with
  | begin process =>
    rw [SocketProgram.step] at taken
    obtain ⟨_, rfl⟩ := Machine.of_guard taken
    refine pinned.setControl fun bound => ?_
    rw [program.unbound_start] at bound
    cases bound
  | advance process =>
    rw [SocketProgram.step] at taken
    obtain ⟨living, taken⟩ := Option.ite_none_right_eq_some.mp taken
    cases next : program.call (w.control process) with
    | none =>
      rw [next] at taken
      cases taken
    | some call =>
      rw [next] at taken
      cases taken
      have performed : program.Pinned (w.perform process call).1 := by
        refine pinned.perform living (fun listens => ?_) fun unlinks => ?_
        · exact pinned.server process (program.bound_of_listen _ (next.trans (by rw [listens])))
        · exact safe (next.trans (by rw [unlinks]))
      refine performed.setControl fun bound => ?_
      rcases program.bound_resume _ _ _ next bound with before | ⟨rfl, answered⟩
      · exact performed.server process ((w.control_perform process call).symm ▸ before)
      · exact w.server_of_bind process answered
  | die process =>
    cases taken
    exact pinned.died

theorem pinned_of_safe_unlinks (reached : program.machine.ReachableUnder program.SafeUnlink w) :
    program.Pinned w := by
  refine reached.invariant ?_ fun v action v' pinned safe taken => pinned.step safe taken
  intro v initial
  constructor
  case file =>
    intro process _ serves
    rw [(initial process).2] at serves
    cases serves
  case server =>
    intro process bound
    rw [(initial process).1, program.unbound_idle] at bound
    cases bound

/-- Where no file of a live server has been removed, at most one live process has the lock. -/
theorem exclusive_of_safe_unlinks (reached : program.machine.ReachableUnder program.SafeUnlink w)
    (first : program.Holder w process) (second : program.Holder w other) : process = other := by
  have pinned := pinned_of_safe_unlinks reached
  have file {holder : Nat} (holds : program.Holder w holder) : w.file = some holder :=
    pinned.file holder holds.1 (pinned.server holder (program.bound_of_holds _ holds.2))
  exact Option.some.inj ((file first).symm.trans (file second))

end SocketProgram

end OutpostPi.Lib
