import OutpostPi.Lib.Machine

/-!
# The armed file of a fleet update

A fleet update asks every target to restart itself once it is idle. A target that accepts the
request leaves two files behind: a durable marker that the update id is consumed under the
target's identity, and an armed file, named after the process id, that carries the nonce of the
process. When the agent settles, the gate reads the armed file again and decides whether to
restart.

Every handler is synchronous, but the process may die between two of its file operations, and
other processes share the directory: `hot-reload off` and the script of that name change it at any
time. So the machine here takes one step for each write and each removal, together with the reads
that lead to it. A write may fail, and it may leave a torn file behind.

A restart remembers the toggle as the gate has found it. By the time of the signal another process
may have removed it.
-/

set_option autoImplicit false

namespace OutpostPi.Fleet

open OutpostPi.Lib

/-! ## Files -/

/-- The content of an armed file. -/
structure ArmRequest where
  nonce : Nat
  ts : Int
  updateId : Option String
  /-- The process that wrote it, which the file does not tell. -/
  armer : Nat
  deriving DecidableEq

/-- The state directory. Armed, claimed and marker files are named after process ids. -/
structure StateDir where
  /-- The directory is there, and only its owner has access. -/
  secure : Bool
  /-- `.hot-reload-enabled` -/
  enabled : Bool
  /-- `.fleet-update-consumed-`, by target and update id. -/
  consumed : List (String × String)
  /-- `.hot-reload-armed-`. The content of a torn file cannot be read. -/
  armed : Nat → Option (Option ArmRequest)
  /-- `.claimed-` -/
  claimed : Nat → Bool
  /-- `.restart-marker-` -/
  marker : Nat → Bool

/-- What happens to a file operation. -/
inductive Fault
  | absent
  /-- It fails and changes nothing. -/
  | refused
  /-- It fails halfway. -/
  | torn
  deriving DecidableEq

namespace StateDir

/-- Write or remove the armed file of a process. -/
def setArmed (dir : StateDir) (pid : Nat) (file : Option (Option ArmRequest)) : StateDir :=
  { dir with armed := fun other => if other = pid then file else dir.armed other }

/-- Write or remove the claimed file of a process. -/
def setClaimed (dir : StateDir) (pid : Nat) (there : Bool) : StateDir :=
  { dir with claimed := fun other => if other = pid then there else dir.claimed other }

/-- Write or remove the restart marker of a process. -/
def setMarker (dir : StateDir) (pid : Nat) (there : Bool) : StateDir :=
  { dir with marker := fun other => if other = pid then there else dir.marker other }

/-- `_removeIfOwnerOnlyRegularFile` on the armed file. -/
def disarm (dir : StateDir) (pid : Nat) (fault : Fault) : StateDir :=
  if fault = .absent then dir.setArmed pid none else dir

/-- `_removeIfOwnerOnlyRegularFile` on the claim. -/
def unclaim (dir : StateDir) (pid : Nat) (fault : Fault) : StateDir :=
  if fault = .absent then dir.setClaimed pid false else dir

/-- `_removeIfOwnerOnlyRegularFile` on the marker. -/
def unmark (dir : StateDir) (pid : Nat) (fault : Fault) : StateDir :=
  if fault = .absent then dir.setMarker pid false else dir

end StateDir

/-! ## The target -/

/-- What the ingress is fenced for. -/
inductive FenceReason
  | hotReload
  | freshSession
  deriving DecidableEq

/-- The phase of a request for an update. -/
inductive Phase
  | legacy
  | prepare
  | commit
  deriving DecidableEq

/-- Who asks for a restart. -/
inductive Origin
  | mesh
  | self
  | manual
  deriving DecidableEq

/-- A request that the gate has let through. -/
structure Passed where
  request : ArmRequest
  /-- `.hot-reload-enabled` was there when the gate looked for it. -/
  enabled : Bool
  deriving DecidableEq

/-- The next file operation of the handler that is running. -/
inductive Task
  | rest
  /-- `_consumeFleetUpdateIntent` -/
  | consuming (updateId : String) (origin : Origin)
  /-- `_tryArmHotReload` -/
  | arming (updateId : Option String) (origin : Origin)
  /-- `_maybeRestartForExtensionReload`, as far as its first write. -/
  | gating
  /-- The write of `_refreshDeferredFleetArm` -/
  | refreshing (request : ArmRequest)
  | claiming (passed : Passed)
  /-- The marker of an earlier restart is removed. -/
  | replacing (passed : Passed)
  | marking (passed : Passed)
  | disarming (passed : Passed)
  | killing (passed : Passed)
  /-- The claim is removed, and then the marker too. -/
  | releasing (marker : Bool)
  | unmarking
  deriving DecidableEq

/-- One process of the target. -/
structure Target where
  pid : Nat
  /-- `_hotReloadNonce` -/
  nonce : Nat
  /-- How many processes there were before. -/
  serial : Nat
  daemon : Bool
  disposed : Bool
  fence : Option FenceReason
  /-- `_meshNode?.address()` -/
  address : Option String
  /-- `_myRoomId` -/
  roomId : Option String
  /-- `_turnProjection().working` -/
  working : Bool
  /-- `ctx.isIdle()` -/
  idle : Bool
  /-- `_backgroundActivityTracker.activeCount` -/
  background : Nat
  /-- `_lastEventCtx` is set. -/
  eventCtx : Bool
  /-- `_lastSettledCtx` is set. -/
  settledCtx : Bool
  /-- Microtasks that evaluate the gate. -/
  queued : Nat
  task : Task
  deriving DecidableEq

/-- What a target answers. -/
inductive AckState
  | armed
  | deferred
  | declined
  deriving DecidableEq

/-- The answer to a request, with the identity under which it was given. -/
structure Ack where
  phase : Phase
  updateId : String
  state : AckState
  reason : Option String
  identity : Option String
  deriving DecidableEq

/-- A restart, as it was when the process signalled itself. -/
structure Restart where
  request : ArmRequest
  nonce : Nat
  serial : Nat
  idle : Bool
  background : Nat
  /-- The toggle as the gate has found it. -/
  enabled : Bool
  deriving DecidableEq

/-- The directory and the running process, with what has happened so far. -/
structure Host where
  dir : StateDir
  target : Option Target
  /-- The nonces of the processes so far. -/
  nonces : List Nat
  acks : List Ack
  restarts : List Restart

/-- What can happen between two file operations. -/
inductive FleetEvent
  | spawned (pid nonce : Nat) (daemon : Bool) (address roomId : Option String)
  | died
  /-- `_writeRuntimeIdentity` and the new session's context. -/
  | sessionStarted
  /-- `clearStaleContexts` and `_clearBackgroundForSessionBoundary` -/
  | sessionEnded
  | request (phase : Phase) (updateId : String)
  /-- `_armFleetSelf` -/
  | armSelf (updateId : String)
  /-- `_armHotReload` -/
  | armManual
  /-- The script arms a process by the nonce in its runtime identity, which may be an old one. -/
  | armScript (pid serial : Nat) (now : Int)
  /-- `.hot-reload-enabled` is written or removed. -/
  | toggled (enabled : Bool)
  /-- The files of a process id are removed, by `off` or by a sweep. -/
  | swept (pid : Nat) (armed claimed marker : Bool)
  /-- The directory's protection changes. -/
  | secured (secure : Bool)
  | settled
  | turn (working : Bool)
  | idled (idle : Bool)
  | background (count : Nat)
  | microtask
  | renamed (address roomId : Option String)
  | disposed (disposed : Bool)
  /-- The fence of a fresh session, which a stale runtime takes down again. -/
  | fenced (fenced : Bool)
  /-- The next file operation of the handler that is running. -/
  | advance (now : Int) (fault : Fault)
  deriving DecidableEq

/-- `_fleetUpdateTargetIdentity` -/
def targetIdentity (address roomId : Option String) : Option String :=
  (address.filter (· ≠ "")).or roomId

namespace Target

/-- The identity of a target at this moment. -/
def identity (t : Target) : Option String := targetIdentity t.address t.roomId

/-- The digest of the identity, which the empty one does not have. -/
def key (t : Target) : Option String := t.identity.filter (· ≠ "")

/-- The agent or a background task works. -/
def hasActiveWork (t : Target) : Bool := t.working || 0 < t.background

/-- `_lastSettledCtx ?? _lastEventCtx` -/
def hasCtx (t : Target) : Bool := t.settledCtx || t.eventCtx

end Target

/-- `_hotReloadEnabledForFleet` -/
def StateDir.enabledFor (dir : StateDir) (t : Target) : Bool :=
  !t.daemon && dir.secure && dir.enabled

/-- The consumption marker of an update id is there. -/
def StateDir.recognises (dir : StateDir) (t : Target) (updateId : String) : Bool :=
  updateId ≠ "" && t.key.any fun key => dir.consumed.contains (key, updateId)

namespace Host

/-! ## Handlers -/

/-- Answer a request. -/
def reply (w : Host) (t : Target) (phase : Phase) (updateId : String) (state : AckState)
    (reason : Option String) : Host :=
  { w with acks := w.acks ++ [⟨phase, updateId, state, reason, t.identity⟩] }

/-- The process goes on with another task. -/
def goTo (w : Host) (t : Target) (task : Task) : Host :=
  { w with target := some { t with task := task } }

/-- `createFleetArmRestartHandler` -/
def fleetArmRestart (w : Host) (t : Target) (phase : Phase) (updateId : String) : Host :=
  if phase = .legacy then w.reply t phase updateId .declined "unsupported fleet arm phase"
  else if t.disposed then w.reply t phase updateId .declined "disposed"
  else if !w.dir.enabledFor t then w.reply t phase updateId .declined "hot-reload disabled"
  else if phase = .prepare then
    if t.hasActiveWork then w.reply t phase updateId .deferred "turn active"
    else w.reply t phase updateId .armed none
  else w.goTo t (.consuming updateId .mesh)

/-- The update has been consumed before. -/
def refused (w : Host) (t : Target) (updateId : String) (origin : Origin) : Host :=
  let w := w.goTo t .rest
  if origin = .mesh then w.reply t .commit updateId .declined "update already consumed" else w

/-- `_consumeFleetUpdateIntent` -/
def consume (w : Host) (t : Target) (updateId : String) (origin : Origin) (fault : Fault) :
    Host :=
  match t.key with
  | none => w.refused t updateId origin
  | some key =>
    if updateId = "" || !w.dir.secure || w.dir.consumed.contains (key, updateId) then
      w.refused t updateId origin
    else
      let written :=
        { w with dir := { w.dir with consumed := w.dir.consumed ++ [(key, updateId)] } }
      match fault with
      | .absent => written.goTo t (.arming (some updateId) origin)
      | .refused => w.refused t updateId origin
      -- The marker is there, whatever its content.
      | .torn => written.refused t updateId origin

/-- An armed request cannot be written. -/
def armFailed (w : Host) (t : Target) (updateId : Option String) (origin : Origin) : Host :=
  let w := w.goTo t .rest
  match origin, updateId with
  | .mesh, some updateId => w.reply t .commit updateId .declined "arm failed"
  | _, _ => w

/-- What follows a request that is written. -/
def armedWith (w : Host) (t : Target) (updateId : Option String) (origin : Origin) : Host :=
  match origin, updateId with
  | .mesh, some updateId =>
    if t.hasActiveWork then
      (w.goTo t .rest).reply t .commit updateId .deferred "turn active"
    else
      -- The gate is evaluated after the answer has gone out.
      let t := if t.hasCtx then { t with queued := t.queued + 1 } else t
      (w.goTo t .rest).reply t .commit updateId .armed none
  | .self, _ => w.goTo t (if !t.hasActiveWork && t.hasCtx then .gating else .rest)
  | _, _ => w.goTo t .rest

/-- `_tryArmHotReload` -/
def tryArm (w : Host) (t : Target) (updateId : Option String) (origin : Origin) (now : Int)
    (fault : Fault) : Host :=
  if !w.dir.enabledFor t || (w.dir.armed t.pid).isSome then w.armFailed t updateId origin
  else
    match fault with
    | .absent =>
      let request : ArmRequest := ⟨t.nonce, now, updateId, t.serial⟩
      { w with dir := w.dir.setArmed t.pid (some (some request)) }.armedWith t updateId origin
    | .refused => w.armFailed t updateId origin
    | .torn => { w with dir := w.dir.setArmed t.pid (some none) }.armFailed t updateId origin

/-- `_refreshDeferredFleetArm`, as far as its write. -/
def refresh (w : Host) (t : Target) : Host :=
  match w.dir.armed t.pid with
  | some (some request) =>
    if request.nonce = t.nonce && request.updateId.any (w.dir.recognises t) then
      w.goTo t (.refreshing request)
    else w.goTo t .rest
  | _ => w.goTo t .rest

/-- The request is written with another time, also where it has been removed since. -/
def rewrite (w : Host) (t : Target) (request : ArmRequest) (now : Int) (fault : Fault) : Host :=
  match fault with
  | .absent =>
    { w with dir := w.dir.setArmed t.pid (some (some { request with ts := now })) }.goTo t .rest
  | .refused => w.goTo t .rest
  | .torn => { w with dir := w.dir.setArmed t.pid (some none) }.goTo t .rest

/-- Manual arms expire after five minutes. -/
def expired (request : ArmRequest) (now : Int) : Bool :=
  request.updateId.isNone && 5 * 60000 < now - request.ts

/-- `_maybeRestartForExtensionReload`, as far as its first write. -/
def gate (w : Host) (t : Target) (now : Int) (fault : Fault) : Host :=
  let disarmed := { w with dir := w.dir.disarm t.pid fault }.goTo t .rest
  if t.daemon || t.disposed then w.goTo t .rest
  else if t.fence.isSome then w.goTo t .rest
  else if !w.dir.secure || !w.dir.enabled then w.goTo t .rest
  else if 0 < t.background then w.refresh t
  else
    match w.dir.armed t.pid with
    | some (some request) =>
      if request.nonce ≠ t.nonce then disarmed
      else if request.updateId.any fun updateId => !w.dir.recognises t updateId then disarmed
      else if expired request now then disarmed
      else if !t.idle then w.refresh t
      else w.goTo t (.claiming ⟨request, w.dir.enabled⟩)
    | _ => w.goTo t .rest

/-- The restart is claimed by the process that creates the file. -/
def claim (w : Host) (t : Target) (passed : Passed) (fault : Fault) : Host :=
  if w.dir.claimed t.pid then w.goTo t .rest
  else
    match fault with
    | .absent => { w with dir := w.dir.setClaimed t.pid true }.goTo t (.replacing passed)
    | .refused => w.goTo t .rest
    | .torn => { w with dir := w.dir.setClaimed t.pid true }.goTo t .rest

/-- Without a marker of its own the process takes the claim back. -/
def mark (w : Host) (t : Target) (passed : Passed) (fault : Fault) : Host :=
  if w.dir.marker t.pid then w.goTo t (.releasing false)
  else
    match fault with
    | .absent => { w with dir := w.dir.setMarker t.pid true }.goTo t (.disarming passed)
    | .refused => w.goTo t (.releasing false)
    | .torn => { w with dir := w.dir.setMarker t.pid true }.goTo t (.releasing false)

/-- `beginHotReloadFence` and the signal. -/
def kill (w : Host) (t : Target) (passed : Passed) : Host :=
  if t.fence.isSome then w.goTo t (.releasing true)
  else
    let restart : Restart :=
      ⟨passed.request, t.nonce, t.serial, t.idle, t.background, passed.enabled⟩
    { w with restarts := w.restarts ++ [restart] }.goTo { t with fence := some .hotReload } .rest

/-- One file operation of the running handler. -/
def perform (w : Host) (t : Target) (now : Int) (fault : Fault) : Option Host :=
  match t.task with
  | .rest => none
  | .consuming updateId origin => some (w.consume t updateId origin fault)
  | .arming updateId origin => some (w.tryArm t updateId origin now fault)
  | .gating => some (w.gate t now fault)
  | .refreshing request => some (w.rewrite t request now fault)
  | .claiming passed => some (w.claim t passed fault)
  | .replacing passed =>
    some ({ w with dir := w.dir.unmark t.pid fault }.goTo t (.marking passed))
  | .marking passed => some (w.mark t passed fault)
  | .disarming passed =>
    some ({ w with dir := w.dir.disarm t.pid fault }.goTo t (.killing passed))
  | .killing passed => some (w.kill t passed)
  | .releasing marker =>
    some ({ w with dir := w.dir.unclaim t.pid fault }.goTo t (if marker then .unmarking else .rest))
  | .unmarking => some ({ w with dir := w.dir.unmark t.pid fault }.goTo t .rest)

/-- An event that finds the process at rest. -/
def handle (w : Host) (t : Target) : FleetEvent → Option Host
  | .sessionStarted =>
    some (w.goTo { t with settledCtx := false, eventCtx := true }
      (if t.daemon then .rest else .releasing true))
  | .sessionEnded =>
    some (w.goTo { t with settledCtx := false, eventCtx := false, background := 0 } .rest)
  | .request phase updateId => some (w.fleetArmRestart t phase updateId)
  | .armSelf updateId =>
    some (if w.dir.enabledFor t then w.goTo t (.consuming updateId .self) else w)
  | .armManual => some (if t.daemon then w else w.goTo t (.arming none .manual))
  | .settled => some (w.goTo { t with settledCtx := true } .gating)
  | .turn working => some (w.goTo { t with working := working } .rest)
  | .idled idle => some (w.goTo { t with idle := idle } .rest)
  | .background count =>
    let drained := 0 < t.background && count = 0 && t.settledCtx
    some (w.goTo { t with background := count } (if drained then .gating else .rest))
  | .microtask =>
    if 0 < t.queued then
      some (w.goTo { t with queued := t.queued - 1 } (if t.disposed then .rest else .gating))
    else none
  | .renamed address roomId => some (w.goTo { t with address := address, roomId := roomId } .rest)
  | .disposed disposed => some (w.goTo { t with disposed := disposed } .rest)
  | .fenced true =>
    some (w.goTo { t with fence := t.fence.or (some .freshSession) } .rest)
  | .fenced false =>
    some (w.goTo { t with fence := t.fence.filter (· = .hotReload) } .rest)
  | _ => none

/-- A sweep removes the files of a process that it takes for dead. -/
def sweep (dir : StateDir) (pid : Nat) (armed claimed marker : Bool) : StateDir :=
  let dir := if armed then dir.setArmed pid none else dir
  let dir := if claimed then dir.setClaimed pid false else dir
  if marker then dir.setMarker pid false else dir

/-- One step of the target, of another process, or of the user. -/
def step (w : Host) (event : FleetEvent) : Option Host :=
  match event with
  | .spawned pid nonce daemon address roomId =>
    if w.target.isNone && nonce ∉ w.nonces then
      some { w with
        target := some ⟨pid, nonce, w.nonces.length, daemon, false, none, address, roomId, false,
          true, 0, false, false, 0, .rest⟩
        nonces := w.nonces ++ [nonce] }
    else none
  | .died => if w.target.isSome then some { w with target := none } else none
  -- Other processes do not wait for a handler to end.
  | .armScript pid serial now =>
    if w.dir.armed pid = none then
      w.nonces[serial]?.map fun nonce =>
        { w with dir := w.dir.setArmed pid (some (some ⟨nonce, now, none, serial⟩)) }
    else none
  | .toggled enabled => some { w with dir := { w.dir with enabled := enabled } }
  | .swept pid armed claimed marker => some { w with dir := sweep w.dir pid armed claimed marker }
  | .secured secure => some { w with dir := { w.dir with secure := secure } }
  | .advance now fault => w.target.bind fun t => w.perform t now fault
  | event => w.target.bind fun t => if t.task = .rest then w.handle t event else none

end Host

/-- One target, over all of its processes. -/
def fleetTarget : Machine Host FleetEvent where
  Init w := w.target = none ∧ w.nonces = [] ∧ w.acks = [] ∧ w.restarts = [] ∧
    ∀ pid, w.dir.armed pid = none
  step := Host.step

end OutpostPi.Fleet
