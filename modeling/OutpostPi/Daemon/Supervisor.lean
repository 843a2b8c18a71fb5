import OutpostPi.Lib.Machine
import OutpostPi.Lib.OrderedMap

/-!
# The supervisor and its children

The supervisor spawns one child process for each registered daemon, restarts those that crash,
serves control requests and fires cron jobs. A request runs until it awaits something; what is
left of it is a `Call`, which is resumed when the promise has resolved. Everything else that
happens in between is an event of its own.

A slot and its `RpcChild` are created together and never separated, so that one record describes
both. Slots are numbered in the order of their creation.
-/

set_option autoImplicit false

namespace OutpostPi.Daemon

open OutpostPi.Lib

/-! ## Slots -/

/-- The `child` of an `RpcChild`: none, a process, or the handle of a process that could not be
spawned, which is never given up. -/
inductive Process
  | absent
  | live
  | failed
  deriving DecidableEq

/-- What a slot shows of its daemon. -/
inductive DaemonState
  | stopped
  | starting
  | running
  | crashed
  deriving DecidableEq

/-- A slot of the supervisor with its `RpcChild`. -/
structure Slot (Id : Type) where
  id : Id
  process : Process
  state : DaemonState
  stopping : Bool
  restartCount : Nat
  /-- The timer that the slot remembers. -/
  restartTimer : Option Nat
  restartAttempt : Nat
  deriving DecidableEq

namespace Slot

variable {Id : Type}

/-- A slot with a new `RpcChild`. -/
def new (id : Id) : Slot Id := ⟨id, .absent, .stopped, false, 0, none, 0⟩

/-- `RpcChild.spawn`. -/
def spawn (c : Slot Id) : Slot Id :=
  if c.process = .absent then { c with stopping := false, process := .live, state := .running }
  else c

/-- `RpcChild.stop`, as far as it runs at once. -/
def stop (c : Slot Id) : Slot Id :=
  if c.process = .absent then c else { c with stopping := true }

/-- `noteRestart`. -/
def noteRestart (c : Slot Id) : Slot Id := { c with restartCount := c.restartCount + 1 }

end Slot

/-- `RESTART_BACKOFFS_MS.length`. -/
def restartBackoffs : Nat := 4

/-! ## Requests and what is left of them -/

/-- A scheduled start of a daemon. -/
structure Job (Id JobId : Type) where
  id : JobId
  daemonId : Id
  enabled : Bool
  skipIfBusy : Bool
  wake : Bool
  deriving DecidableEq

/-- The requests of the control socket. -/
inductive Request (Id JobId : Type)
  | start (id : Id)
  | startAll
  | stop (id : Id)
  | stopAll
  | restart (id : Id)
  | restartAll
  | register (id : Id)
  | unregister (id : Id)
  | cronAdd (job : Job Id JobId)
  | cronRemove (id : JobId)
  | cronEnable (id : JobId) (enabled : Bool)
  | cronRun (id : JobId)
  /-- `list`, `status`, `send`, `cron_list`, `cron_log` and everything that is refused. -/
  | other
  deriving DecidableEq

/-- What a request does once it is resumed. -/
inductive Continuation (Id : Type)
  /-- `_opStop` replies. -/
  | stop
  /-- `_opStopAll` goes on with the children from a position on, for `_opRestartAll` or not. -/
  | stopAll (next : Nat) (restart : Bool)
  /-- `_opRestartAll` goes on with `_opStartAll`. -/
  | startAll
  | restart (id : Id)
  | unregister (id : Id)
  /-- `fireJob` knows whether the daemon is busy; for `cron_run` or not. -/
  | fireJob (manual : Bool)
  deriving DecidableEq

/-- A suspended request. It can be resumed when it awaits the exit of no slot. -/
structure Call (Id : Type) where
  awaits : Option Nat
  rest : Continuation Id
  deriving DecidableEq

/-- A call of `Supervisor.stop`: awaiting the exits of these slots, or the server to close. -/
inductive Shutdown
  | stopping (waiting : List Nat)
  | closing
  deriving DecidableEq

/-- A promise that awaits the exit of a slot resolves. -/
def Call.exited {Id : Type} (k : Nat) (call : Call Id) : Call Id :=
  if call.awaits = some k then { call with awaits := none } else call

/-- A shutdown does not wait for a child any more. -/
def Shutdown.exited (k : Nat) : Shutdown → Shutdown
  | .stopping waiting => .stopping (waiting.filter fun other => other ≠ k)
  | .closing => .closing

/-- A value of the map `children`, with the position at which its key was inserted. -/
structure Entry where
  position : Nat
  slot : Nat
  deriving DecidableEq

/-! ## The state -/

/-- The supervisor with its slots, timers and suspended requests. -/
structure State (Id JobId : Type) where
  /-- The registered daemons. -/
  registry : List Id
  jobs : List (Job Id JobId)
  /-- The jobs that have a live schedule. -/
  cronJobs : List JobId
  slots : List (Slot Id)
  children : OrderedMap Id Entry
  nextPosition : Nat
  /-- The pending restart timers, each with the slot for which it fires. -/
  timers : List (Nat × Nat)
  nextTimer : Nat
  calls : List (Call Id)
  shutdowns : List Shutdown
  shuttingDown : Bool
  /-- A call of `Supervisor.stop` has resolved, so that the server is closed. -/
  stopped : Bool

namespace State

variable {Id JobId : Type} [DecidableEq Id] [DecidableEq JobId]

/-- The slot that is stored for a daemon. -/
def slotOf (s : State Id JobId) (id : Id) : Option Nat := (s.children.get? id).map Entry.slot

/-- `slot.child.state === "running"`. -/
def slotRuns (s : State Id JobId) (k : Nat) : Bool :=
  match s.slots[k]? with
  | some c => c.state = .running
  | none => false

/-- The daemon has a slot whose child runs. -/
def runs (s : State Id JobId) (id : Id) : Bool :=
  match s.slotOf id with
  | some k => s.slotRuns k
  | none => false

/-- A slot changes in place. -/
def modifySlot (s : State Id JobId) (k : Nat) (f : Slot Id → Slot Id) : State Id JobId :=
  match s.slots[k]? with
  | some c => { s with slots := s.slots.set k (f c) }
  | none => s

/-- `clearTimeout(slot.restartTimer)`. -/
def cancelTimer (s : State Id JobId) (k : Nat) : State Id JobId :=
  match s.slots[k]?.bind Slot.restartTimer with
  | some t => { s with timers := s.timers.filter fun timer => timer.1 ≠ t }
  | none => s

/-- Clear the timer of a slot and forget it. -/
def clearRestartTimer (s : State Id JobId) (k : Nat) : State Id JobId :=
  (s.cancelTimer k).modifySlot k fun c => { c with restartTimer := none }

/-- `child.stop()` resolves at once where there is no child. -/
def awaited (s : State Id JobId) (k : Nat) : Option Nat :=
  match s.slots[k]? with
  | some c => if c.process = .absent then none else some k
  | none => none

/-- `await slot.child.stop()`, with what comes after it. -/
def awaitStop (s : State Id JobId) (k : Nat) (rest : Continuation Id) : State Id JobId :=
  let waits := s.awaited k
  let s := s.modifySlot k Slot.stop
  { s with calls := s.calls ++ [⟨waits, rest⟩] }

/-! ## The lifecycle of a child -/

/-- What `_spawnEntry` does to the slot that it replaces. -/
def retire (s : State Id JobId) (id : Id) : State Id JobId :=
  match s.slotOf id with
  | none => s
  | some k =>
    let s := s.cancelTimer k
    if s.slotRuns k then s.modifySlot k Slot.stop else s

/-- `_spawnEntry`. A key that is in the map keeps its position. -/
def spawnEntry (s : State Id JobId) (id : Id) : State Id JobId :=
  let s := s.retire id
  let position := ((s.children.get? id).map Entry.position).getD s.nextPosition
  { s with
    slots := s.slots ++ [(Slot.new id).spawn]
    children := s.children.set id ⟨position, s.slots.length⟩
    nextPosition := s.nextPosition + 1 }

/-- `_onChildExit`, which finds the slot by the daemon. -/
def onChildExit (s : State Id JobId) (id : Id) (isCrash fresh : Bool) : State Id JobId :=
  if s.shuttingDown then s
  else
    match s.slotOf id with
    | none => s
    | some k =>
      if !isCrash then s
      else if fresh then
        s.modifySlot k fun c => { c with restartAttempt := 0 }.noteRestart.spawn
      else
        match s.slots[k]? with
        | none => s
        | some c =>
          if restartBackoffs ≤ c.restartAttempt then s
          else
            { s with
              slots := s.slots.set k { c with restartTimer := some s.nextTimer }
              timers := s.timers ++ [(s.nextTimer, k)]
              nextTimer := s.nextTimer + 1 }

/-- The event `exit` of an `RpcChild`: the supervisor hears it first, and then everything that
awaits it. -/
def emitExit (s : State Id JobId) (k : Nat) (id : Id) (isCrash fresh : Bool) : State Id JobId :=
  let s := s.onChildExit id isCrash fresh
  { s with calls := s.calls.map (Call.exited k), shutdowns := s.shutdowns.map (Shutdown.exited k) }

/-! ## Control operations -/

/-- `_opStartAll`. -/
def opStartAll (s : State Id JobId) : State Id JobId :=
  s.registry.foldl (fun s id => if s.runs id then s else s.spawnEntry id) s

/-- `_opStart`. -/
def opStart (s : State Id JobId) (id : Id) : State Id JobId :=
  if id ∈ s.registry then if s.runs id then s else s.spawnEntry id else s

/-- The loop of `_opStopAll` over the children from a position on. A child that does not run is
passed over. -/
def stopAllFrom (s : State Id JobId) (next : Nat) (restart : Bool) : State Id JobId :=
  match s.children.entries.find? fun entry =>
      decide (next ≤ entry.2.position) && s.slotRuns entry.2.slot with
  | some entry =>
    (s.clearRestartTimer entry.2.slot).awaitStop entry.2.slot
      (.stopAll (entry.2.position + 1) restart)
  | none => if restart then { s with calls := s.calls ++ [⟨none, .startAll⟩] } else s

/-- `_opStop`. -/
def opStop (s : State Id JobId) (id : Id) : State Id JobId :=
  if id ∈ s.registry then
    match s.slotOf id with
    | none => s
    | some k => if s.slotRuns k then (s.clearRestartTimer k).awaitStop k .stop else s
  else s

/-- `_opRestart`. -/
def opRestart (s : State Id JobId) (id : Id) : State Id JobId :=
  if id ∈ s.registry then
    match s.slotOf id with
    | none => s.spawnEntry id
    | some k =>
      if s.slotRuns k then (s.clearRestartTimer k).awaitStop k (.restart id)
      else s.spawnEntry id
  else s

/-- `_opRegister` of a directory that has a daemon is refused. -/
def opRegister (s : State Id JobId) (id : Id) : State Id JobId :=
  if id ∈ s.registry then s else { s with registry := s.registry ++ [id] }

/-- `_opUnregister`. -/
def opUnregister (s : State Id JobId) (id : Id) : State Id JobId :=
  match s.slotOf id with
  | none => { s with registry := s.registry.erase id }
  | some k => (s.clearRestartTimer k).awaitStop k (.unregister id)

/-! ## Cron -/

/-- `_stopCron`. -/
def stopCron (s : State Id JobId) (id : JobId) : State Id JobId :=
  { s with cronJobs := s.cronJobs.filter fun other => other ≠ id }

/-- `_scheduleCron`. -/
def scheduleCron (s : State Id JobId) (id : JobId) : State Id JobId :=
  let s := s.stopCron id
  { s with cronJobs := s.cronJobs ++ [id] }

/-- The job exists and may be fired. -/
def firing (s : State Id JobId) (id : JobId) (manual : Bool) : Option (Job Id JobId) :=
  (s.jobs.find? fun job => job.id = id).filter fun job => job.enabled || manual

/-- `fireJob`. A prompt that is sent changes nothing here. -/
def fireJob (s : State Id JobId) (id : JobId) (manual : Bool) : State Id JobId :=
  match s.firing id manual with
  | none => s
  | some job =>
    if s.runs job.daemonId then
      if job.skipIfBusy then { s with calls := s.calls ++ [⟨none, .fireJob manual⟩] } else s
    else if job.wake ∧ job.daemonId ∈ s.registry then s.spawnEntry job.daemonId
    else s

/-- `_opCronEnable`. -/
def opCronEnable (s : State Id JobId) (id : JobId) (enabled : Bool) : State Id JobId :=
  if s.jobs.any fun job => job.id = id then
    let s : State Id JobId :=
      { s with jobs := s.jobs.map fun job =>
          if job.id = id then { job with enabled := enabled } else job }
    let s := s.stopCron id
    if enabled then s.scheduleCron id else s
  else s

/-- `_handleRequest`. The id of a new job is fresh. -/
def handle (s : State Id JobId) : Request Id JobId → State Id JobId
  | .start id => s.opStart id
  | .startAll => s.opStartAll
  | .stop id => s.opStop id
  | .stopAll => s.stopAllFrom 0 false
  | .restart id => s.opRestart id
  | .restartAll => s.stopAllFrom 0 true
  | .register id => s.opRegister id
  | .unregister id => s.opUnregister id
  | .cronAdd job =>
    if s.jobs.any fun other => other.id = job.id then s
    else
      let s : State Id JobId := { s with jobs := s.jobs ++ [{ job with enabled := true }] }
      s.scheduleCron job.id
  | .cronRemove id =>
    let s : State Id JobId := { s with jobs := s.jobs.eraseP fun job => job.id = id }
    s.stopCron id
  | .cronEnable id enabled => s.opCronEnable id enabled
  | .cronRun id => s.fireJob id true
  | .other => s

/-- What a resumed request does. -/
def continue_ (s : State Id JobId) : Continuation Id → State Id JobId
  | .stop => s
  | .stopAll next restart => s.stopAllFrom next restart
  | .startAll => s.opStartAll
  | .restart id => s.spawnEntry id
  | .unregister id =>
    { s with children := s.children.erase id, registry := s.registry.erase id }
  | .fireJob _ => s

/-! ## Shutdown -/

/-- `Supervisor.stop` until it awaits the children. -/
def beginStop (s : State Id JobId) : State Id JobId :=
  let stored := s.children.entries.map fun entry => entry.2.slot
  let s := stored.foldl clearRestartTimer s
  let waiting := stored.filterMap s.awaited
  let s := stored.foldl (fun s k => s.modifySlot k Slot.stop) s
  { s with
    shuttingDown := true
    cronJobs := []
    shutdowns := s.shutdowns ++ [.stopping waiting] }

end State

/-! ## Steps -/

/-- How a process exits: with code 0, with `EXIT_FRESH_SESSION`, or otherwise. -/
inductive Exit
  | clean
  | fresh
  | crash
  deriving DecidableEq

/-- What can happen to the supervisor. -/
inductive Event (Id JobId : Type)
  /-- A request arrives. -/
  | request (request : Request Id JobId)
  /-- A suspended request is resumed. -/
  | resume (call : Nat)
  /-- The process of a slot exits. -/
  | exit (slot : Nat) (exit : Exit)
  /-- The process of a slot turns out not to have been spawned. -/
  | error (slot : Nat)
  /-- A restart timer fires. -/
  | timer (timer : Nat)
  /-- A cron schedule fires. -/
  | cron (job : JobId)
  /-- `Supervisor.stop` is called. -/
  | stop
  /-- All children of a call of `Supervisor.stop` have exited. -/
  | stopped (shutdown : Nat)
  /-- The server of a call of `Supervisor.stop` has closed. -/
  | closed (shutdown : Nat)
  deriving DecidableEq

namespace State

variable {Id JobId : Type} [DecidableEq Id] [DecidableEq JobId]

/-- `_onExit` of the process of a slot. -/
def exited (s : State Id JobId) (k : Nat) (c : Slot Id) (exit : Exit) : State Id JobId :=
  let isCrash : Bool := !c.stopping && exit != .clean
  let s := s.modifySlot k fun c =>
    { c with process := .absent, state := if isCrash then .crashed else .stopped }
  s.emitExit k c.id isCrash (exit == .fresh)

/-- The handler of `error` of the process of a slot. -/
def failed (s : State Id JobId) (k : Nat) (c : Slot Id) : State Id JobId :=
  let s := s.modifySlot k fun c => { c with process := .failed, state := .crashed }
  s.emitExit k c.id true false

/-- The callback of a restart timer. -/
def restartSlot (s : State Id JobId) (timer k : Nat) : State Id JobId :=
  let s : State Id JobId :=
    { s with timers := s.timers.filter fun other => other.1 ≠ timer }
  s.modifySlot k fun c =>
    { c with restartTimer := none, restartAttempt := c.restartAttempt + 1 }.noteRestart.spawn

/-- One step of the supervisor. -/
def step (s : State Id JobId) : Event Id JobId → Option (State Id JobId)
  | .request request => if s.stopped then none else some (s.handle request)
  | .resume i =>
    match s.calls[i]? with
    | some ⟨none, rest⟩ =>
      let s : State Id JobId := { s with calls := s.calls.eraseIdx i }
      some (s.continue_ rest)
    | _ => none
  | .exit k exit =>
    match s.slots[k]? with
    | some c => if c.process = .live then some (s.exited k c exit) else none
    | none => none
  | .error k =>
    match s.slots[k]? with
    | some c => if c.process = .live then some (s.failed k c) else none
    | none => none
  | .timer timer =>
    match s.timers.find? fun other => other.1 = timer with
    | some found => some (s.restartSlot timer found.2)
    | none => none
  | .cron id => if id ∈ s.cronJobs then some (s.fireJob id false) else none
  | .stop => some s.beginStop
  | .stopped i =>
    match s.shutdowns[i]? with
    | some (.stopping []) =>
      some { s with children := .empty, shutdowns := s.shutdowns.set i .closing }
    | _ => none
  | .closed i =>
    match s.shutdowns[i]? with
    | some .closing => some { s with stopped := true, shutdowns := s.shutdowns.eraseIdx i }
    | _ => none

/-- The supervisor after `start`: all registered daemons are spawned and all enabled jobs
scheduled. -/
def started (registry : List Id) (jobs : List (Job Id JobId)) : State Id JobId :=
  let s : State Id JobId :=
    ⟨registry, jobs, (jobs.filter Job.enabled).map Job.id, [], .empty, 0, [], 0, [], [], false,
      false⟩
  registry.foldl spawnEntry s

end State

/-- The supervisor from the moment when it has started. -/
def supervisor (Id JobId : Type) [DecidableEq Id] [DecidableEq JobId] :
    Machine (State Id JobId) (Event Id JobId) where
  Init s := ∃ registry jobs, s = .started registry jobs
  step := State.step

end OutpostPi.Daemon
