import OutpostPi.Fleet.OneRestart

/-!
# Acknowledged commits are kept

A commit that is acknowledged as armed or deferred is to stay armed until the restart is triggered,
however long background work defers it, and a commit that is declined because arming failed is to
leave its update id unconsumed.

Neither holds of every run. The gate looks for the consumption marker under the identity that the
process has by then, so a mesh address or a room id that changes in between makes it remove the
armed file. And the update id is consumed before the armed file is written, so that an armed file
that is already there declines the commit for good (`commits_dropped`). `commits_kept_iff` says that
nothing else goes wrong.

Other processes may write to the directory between any two file operations, but remove neither the
toggle nor an armed file.
-/

set_option autoImplicit false

namespace OutpostPi.Fleet

open OutpostPi.Lib

/-! ## The life of one process -/

/-- The process stays alive and undisposed, hot reload stays enabled, and the state is writable. -/
def FleetEvent.steady : FleetEvent → Bool
  | .spawned .. | .died | .disposed true | .toggled false | .secured false => false
  | .swept _ armed _ _ => !armed
  | .advance _ fault => fault = .absent
  | _ => true

/-- One process of the target. -/
def steadyTarget : Machine Host FleetEvent where
  Init w := ∃ t, w.target = some t
  step w event := if event.steady then w.step event else none

/-- A process begins, with whatever earlier ones have left behind. -/
structure Begins (w : Host) (t : Target) : Prop where
  here : w.target = some t
  daemon : t.daemon = false
  disposed : t.disposed = false
  rests : t.task = .rest
  secure : w.dir.secure = true
  enabled : w.dir.enabled = true
  acks : w.acks = []
  restarts : w.restarts = []

namespace Ack

/-- The commit is accepted. -/
def Accepts (ack : Ack) (updateId : String) : Prop :=
  ack.phase = .commit ∧ ack.updateId = updateId ∧ (ack.state = .armed ∨ ack.state = .deferred)

/-- The commit is declined because its request could not be armed. -/
def ArmFailed (ack : Ack) : Prop :=
  ack.phase = .commit ∧ ack.state = .declined ∧ ack.reason = some "arm failed"

/-- The answer is neither. -/
structure Quiet (ack : Ack) : Prop where
  accepts : ∀ updateId, ¬ack.Accepts updateId
  armFailed : ¬ack.ArmFailed

end Ack

namespace Host

variable {w w' : Host} {t t' : Target} {dir : StateDir} {updateId : String} {r : ArmRequest}

/-- A commit for the update id has been accepted. -/
def Acknowledged (w : Host) (updateId : String) : Prop := ∃ ack ∈ w.acks, ack.Accepts updateId

/-- The armed file of the process asks for the update. -/
def ArmedFor (w : Host) (t : Target) (updateId : String) : Prop :=
  ∃ r, w.dir.armed t.pid = some (some r) ∧ r.nonce = t.nonce ∧ r.updateId = some updateId

/-- The update is armed, or its restart is being triggered, or has been. -/
def Pending (w : Host) (updateId : String) : Prop :=
  (∃ t ∈ w.target, w.ArmedFor t updateId ∨
      ∃ p, t.task = .killing p ∧ p.request.updateId = some updateId) ∨
    ∃ x ∈ w.restarts, x.request.updateId = some updateId

/-- No commit is dropped. -/
structure Kept (w : Host) : Prop where
  /-- An acknowledged one is pending. -/
  pending : ∀ updateId, w.Acknowledged updateId → w.Pending updateId
  /-- One that is declined because arming failed is not consumed. -/
  declined : ∀ ack ∈ w.acks, ack.ArmFailed → ∀ key ∈ ack.identity.filter (· ≠ ""),
    (key, ack.updateId) ∉ w.dir.consumed

/-- A gate that reaches an acknowledged update finds it consumed under the identity that the process
has by now, and a commit that is about to be armed finds no armed file. -/
def Recognised (w : Host) : FleetEvent → Prop
  | .advance _ .absent => ∀ t ∈ w.target,
      (t.task = .gating → t.fence = none → t.background = 0 → ∀ updateId,
        w.Acknowledged updateId → w.ArmedFor t updateId → w.dir.recognises t updateId = true) ∧
      ∀ updateId, t.task = .arming (some updateId) .mesh → w.dir.armed t.pid = none
  | _ => True

/-! ## The invariant -/

structure Alive (w : Host) (t : Target) : Prop where
  here : w.target = some t
  daemon : t.daemon = false
  disposed : t.disposed = false
  secure : w.dir.secure = true
  enabled : w.dir.enabled = true
  /-- A restart is prepared without a fence, and for the request in the armed file. -/
  carrying : ∀ r, t.task.request? = some r →
    t.fence = none ∧
      ((∃ p, t.task = .killing p ∧ p.request = r) ∨ w.dir.armed t.pid = some (some r))
  /-- An update that is about to be armed is consumed. -/
  arming : ∀ updateId, t.task.armsUpdate? = some updateId →
    ∃ key ∈ t.key, (key, updateId) ∈ w.dir.consumed
  fenced : w.restarts ≠ [] → t.fence = some .hotReload
  /-- A commit whose request could not be armed is consumed. -/
  failed : ∀ ack ∈ w.acks, ack.ArmFailed →
    ∃ key ∈ ack.identity.filter (· ≠ ""), (key, ack.updateId) ∈ w.dir.consumed

/-- Within the invariant, what is kept is told without the consumption markers. -/
structure Held (w : Host) : Prop where
  pending : ∀ updateId, w.Acknowledged updateId → w.Pending updateId
  armed : ∀ ack ∈ w.acks, ¬ack.ArmFailed

/-- In a living host the commits are kept exactly when every consumed one is held by the task in
hand or by an armed restart. -/
theorem Alive.kept_iff (alive : Alive w t) : w.Kept ↔ w.Held := by
  constructor
  · intro kept
    refine ⟨kept.pending, fun ack mem failed => ?_⟩
    obtain ⟨key, named, consumed⟩ := alive.failed ack mem failed
    exact kept.declined ack mem failed key named consumed
  · intro held
    exact ⟨held.pending, fun ack mem failed => absurd failed (held.armed ack mem)⟩

/-- A step that keeps the armed file and gives no answer to a commit. -/
structure KeepsArmed (w : Host) (t : Target) (dir : StateDir) (t' : Target) (acks : List Ack) :
    Prop where
  pid : t'.pid = t.pid
  nonce : t'.nonce = t.nonce
  daemon : t'.daemon = t.daemon
  disposed : t'.disposed = false
  fence : t.fence = some .hotReload → t'.fence = some .hotReload
  secure : dir.secure = true
  enabled : dir.enabled = true
  consumed : ∀ marker ∈ w.dir.consumed, marker ∈ dir.consumed
  armed : ∀ updateId, w.ArmedFor t updateId →
    ArmedFor { w with dir := dir } t updateId
  acks : ∀ ack ∈ acks, ack ∈ w.acks ∨ ack.Quiet
  killing : ∀ r, t.task ≠ .killing r

variable {acks : List Ack}

/-- A step that keeps what is armed keeps every held commit held. -/
theorem KeepsArmed.held (keeps : KeepsArmed w t dir t' acks) (alive : Alive w t) (held : w.Held) :
    Held { w with dir := dir, target := some t', acks := acks } where
  pending updateId acknowledged := by
    obtain ⟨ack, mem, accepts⟩ := acknowledged
    have before : w.Acknowledged updateId :=
      ⟨ack, (keeps.acks ack mem).resolve_right fun quiet => quiet.accepts updateId accepts, accepts⟩
    rcases held.pending updateId before with ⟨_, here, armed | ⟨r, killing, -⟩⟩ | spent
    · obtain rfl := Option.some.inj (alive.here.symm.trans here)
      obtain ⟨r, there, own, asks⟩ := keeps.armed updateId armed
      refine .inl ⟨t', rfl, .inl ⟨r, ?_, own.trans keeps.nonce.symm, asks⟩⟩
      rw [keeps.pid]
      exact there
    · obtain rfl := Option.some.inj (alive.here.symm.trans here)
      exact absurd killing (keeps.killing r)
    · exact .inr spent
  armed ack mem := by
    rcases keeps.acks ack mem with before | quiet
    · exact held.armed ack before
    · exact quiet.armFailed

/-- A step that keeps what is armed keeps the host alive, if the task it goes on with carries no
more than the old one. -/
theorem KeepsArmed.alive (keeps : KeepsArmed w t dir t' acks) (alive : Alive w t)
    (carrying : ∀ r, t'.task.request? = some r →
      t'.fence = none ∧
        ((∃ p, t'.task = .killing p ∧ p.request = r) ∨ dir.armed t'.pid = some (some r)))
    (arming : ∀ updateId, t'.task.armsUpdate? = some updateId →
      ∃ key ∈ t'.key, (key, updateId) ∈ dir.consumed) :
    Alive { w with dir := dir, target := some t', acks := acks } t' :=
  { keeps with
    here := rfl
    daemon := keeps.daemon.trans alive.daemon
    carrying := carrying
    arming := arming
    fenced spent := keeps.fence (alive.fenced spent)
    failed ack mem failed := by
      rcases keeps.acks ack mem with before | quiet
      · obtain ⟨key, named, consumed⟩ := alive.failed ack before failed
        exact ⟨key, named, keeps.consumed _ consumed⟩
      · exact absurd failed quiet.armFailed }

/-- What a step does to the invariant, and to what is kept. -/
structure StepKeeps (w : Host) (w' : Host) (recognised : Prop) : Prop where
  alive : ∃ t', w'.Alive t'
  held_iff : w.Held → (w'.Held ↔ recognised)

variable {recognised : Prop}

/-- A step that keeps what is armed and carries no request of its own keeps the commits. -/
theorem Alive.of_keepsArmed (alive : Alive w t) (keeps : KeepsArmed w t dir t' acks)
    (request : t'.task.request? = none) (arms : t'.task.armsUpdate? = none)
    (recognises : recognised) :
    StepKeeps w { w with dir := dir, target := some t', acks := acks } recognised where
  alive := by
    refine ⟨t', keeps.alive alive (fun r takes => ?_) fun updateId asks => ?_⟩
    · rw [request] at takes
      cases takes
    · rw [arms] at asks
      cases asks
  held_iff held := iff_of_true (keeps.held alive held) recognises

/-- The process goes on with another task, and nothing else changes. -/
theorem Alive.keepsArmed (alive : Alive w t) {task : Task} (killing : ∀ r, t.task ≠ .killing r) :
    KeepsArmed w t w.dir { t with task := task } w.acks :=
  ⟨rfl, rfl, rfl, alive.disposed, id, alive.secure, alive.enabled, fun _ mem => mem,
    fun _ armed => armed, fun _ mem => .inl mem, killing⟩

/-- Going on with a task that carries no request keeps the commits. -/
theorem Alive.pause (alive : Alive w t) {task : Task} (killing : ∀ r, t.task ≠ .killing r)
    (request : task.request? = none) (arms : task.armsUpdate? = none) (recognises : recognised) :
    StepKeeps w (w.goTo t task) recognised :=
  alive.of_keepsArmed (alive.keepsArmed killing) request arms recognises

/-- A quiet answer changes nothing. -/
theorem Alive.answer (alive : Alive w t) (rests : t.task = .rest) {ack : Ack} (quiet : ack.Quiet)
    (recognises : recognised) : StepKeeps w { w with acks := w.acks ++ [ack] } recognised := by
  have same : { w with acks := w.acks ++ [ack] } =
      { w with dir := w.dir, target := some t, acks := w.acks ++ [ack] } := by rw [← alive.here]
  rw [same]
  refine alive.of_keepsArmed ⟨rfl, rfl, rfl, alive.disposed, id, alive.secure, alive.enabled,
    fun _ mem => mem, fun _ armed => armed, fun other mem => ?_, fun r => ?_⟩ ?_ ?_ recognises
  · rcases List.mem_append.mp mem with before | now
    · exact .inl before
    · rw [List.mem_singleton.mp now]
      exact .inr quiet
  · rw [rests]
    exact fun same => by cases same
  · rw [rests]
    rfl
  · rw [rests]
    rfl

/-- An acknowledgement of a prepare says nothing about a commit. -/
theorem quiet_of_phase {ack : Ack} (early : ack.phase ≠ .commit) : ack.Quiet :=
  ⟨fun _ accepts => early accepts.1, fun failed => early failed.1⟩

/-- A refusal for another reason than a failed arming is quiet. -/
theorem quiet_of_reason {ack : Ack} (declined : ack.state = .declined)
    (other : ack.reason ≠ some "arm failed") : ack.Quiet := by
  refine ⟨fun updateId accepts => ?_, fun failed => other failed.2.2⟩
  rcases accepts.2.2 with armed | deferred
  · cases declined.symm.trans armed
  · cases declined.symm.trans deferred

/-- In a living host the toggle reads as on for its process. -/
theorem enabledFor_of_alive (alive : Alive w t) : w.dir.enabledFor t = true := by
  simp [StateDir.enabledFor, alive.daemon, alive.secure, alive.enabled]

/-- A request from the fleet or from the command line keeps the commits. -/
theorem Alive.request (alive : Alive w t) (rests : t.task = .rest) (phase : Phase)
    (updateId : String) : StepKeeps w (w.fleetArmRestart t phase updateId) True := by
  unfold fleetArmRestart
  rw [alive.disposed, enabledFor_of_alive alive]
  cases phase with
  | legacy => exact alive.answer rests (quiet_of_phase fun same => by cases same) trivial
  | prepare =>
    simp only [reduceCtorEq, if_false, Bool.not_true, Bool.false_eq_true, if_true]
    split <;> exact alive.answer rests (quiet_of_phase fun same => by cases same) trivial
  | commit =>
    exact alive.pause (fun r => by rw [rests]; exact fun same => by cases same) rfl rfl trivial

/-! ## Consumptions -/

/-- A refused commit keeps the commits, since it is neither consumed nor carried. -/
theorem Alive.refused (alive : Alive w t)
    (within : ∀ marker ∈ w.dir.consumed, marker ∈ dir.consumed)
    (armed : dir.armed = w.dir.armed) (secure : dir.secure = w.dir.secure)
    (enabled : dir.enabled = w.dir.enabled) (killing : ∀ r, t.task ≠ .killing r)
    (updateId : String) (origin : Origin) :
    StepKeeps w ({ w with dir := dir }.refused t updateId origin) True := by
  have keeps : ∀ acks, (∀ ack ∈ acks, ack ∈ w.acks ∨ ack.Quiet) →
      KeepsArmed w t dir { t with task := .rest } acks := fun acks quiet =>
    ⟨rfl, rfl, rfl, alive.disposed, id, secure.trans alive.secure, enabled.trans alive.enabled,
      within, fun updateId asks => by rwa [ArmedFor, armed], quiet, killing⟩
  unfold Host.refused
  dsimp only
  split
  · refine alive.of_keepsArmed (keeps _ fun ack mem => ?_) rfl rfl trivial
    rcases List.mem_append.mp mem with before | now
    · exact .inl before
    · rw [List.mem_singleton.mp now]
      exact .inr (quiet_of_reason rfl (by simp))
  · exact alive.of_keepsArmed (keeps _ fun _ mem => .inl mem) rfl rfl trivial

/-- Consuming a commit keeps the commits: the task goes on to arm it. -/
theorem Alive.consume (alive : Alive w t) (killing : ∀ r, t.task ≠ .killing r) (updateId : String)
    (origin : Origin) : StepKeeps w (w.consume t updateId origin .absent) True := by
  have refused := alive.refused (fun _ mem => mem) rfl rfl rfl killing updateId origin
  unfold Host.consume
  split
  · exact refused
  next key named =>
  split
  · exact refused
  have keeps : KeepsArmed w t { w.dir with consumed := w.dir.consumed ++ [(key, updateId)] }
      { t with task := .arming (some updateId) origin } w.acks :=
    ⟨rfl, rfl, rfl, alive.disposed, id, alive.secure, alive.enabled,
      fun _ mem => List.mem_append_left _ mem, fun _ armed => armed, fun _ mem => .inl mem, killing⟩
  refine ⟨⟨_, keeps.alive alive (fun r takes => ?_) fun asked asks => ?_⟩, fun held => ?_⟩
  · cases takes
  · cases asks
    exact ⟨key, named, List.mem_append_right _ (List.mem_singleton_self _)⟩
  · exact iff_of_true (keeps.held alive held) trivial

/-! ## Armings -/

variable {origin : Origin}

/-- The request cannot be armed, and no commit is told so. -/
theorem Alive.armFailed (alive : Alive w t) (killing : ∀ r, t.task ≠ .killing r)
    {updateId : Option String} (untold : ∀ asked, origin = .mesh → updateId ≠ some asked) :
    StepKeeps w (w.armFailed t updateId origin) True := by
  unfold Host.armFailed
  split
  · next asked => exact absurd rfl (untold asked rfl)
  · exact alive.pause killing rfl rfl trivial

/-- The commit is told that its request could not be armed, although it is consumed. -/
theorem Alive.armFailed_mesh (alive : Alive w t) (task : t.task = .arming (some updateId) .mesh)
    (unrecognised : ¬recognised) : StepKeeps w (w.armFailed t (some updateId) .mesh) recognised := by
  obtain ⟨key, named, consumed⟩ := alive.arming updateId (by rw [task]; rfl)
  constructor
  · refine ⟨{ t with task := .rest }, ⟨rfl, alive.daemon, alive.disposed, alive.secure,
      alive.enabled, fun r takes => (by cases takes), fun asked asks => (by cases asks),
      alive.fenced, fun ack mem failed => ?_⟩⟩
    rcases List.mem_append.mp mem with before | now
    · exact alive.failed ack before failed
    · rw [List.mem_singleton.mp now]
      exact ⟨key, named, consumed⟩
  · refine fun _ => iff_of_false (fun held => ?_) unrecognised
    exact held.armed _ (List.mem_append_right _ (List.mem_singleton_self _)) ⟨rfl, rfl, rfl⟩

/-- A commit is accepted with the update that is armed. -/
structure Accepted (w : Host) (t : Target) (asked : Option String) (t' : Target)
    (acks : List Ack) : Prop where
  pid : t'.pid = t.pid
  nonce : t'.nonce = t.nonce
  daemon : t'.daemon = t.daemon
  disposed : t'.disposed = t.disposed
  fence : t'.fence = t.fence
  request : t'.task.request? = none
  arms : t'.task.armsUpdate? = none
  acks : ∀ ack ∈ acks, ack ∈ w.acks ∨ asked = some ack.updateId ∧ ack.state ≠ .declined

/-- Answering a commit changes the task and the answers only. -/
theorem exists_accepted (w : Host) (t : Target) (asked : Option String) (origin : Origin) :
    ∃ t' acks, w.armedWith t asked origin = { w with target := some t', acks := acks } ∧
      Accepted w t asked t' acks := by
  have told : ∀ (updateId : String) (state : AckState) (reason : Option String),
      state ≠ .declined → ∀ ack ∈ w.acks ++ [⟨.commit, updateId, state, reason, t.identity⟩],
      ack ∈ w.acks ∨ some updateId = some ack.updateId ∧ ack.state ≠ .declined := by
    intro updateId state reason accepts ack mem
    rcases List.mem_append.mp mem with before | now
    · exact .inl before
    · rw [List.mem_singleton.mp now]
      exact .inr ⟨rfl, accepts⟩
  unfold armedWith
  split
  · split
    · exact ⟨_, _, rfl, rfl, rfl, rfl, rfl, rfl, rfl, rfl, told _ _ _ fun same => by cases same⟩
    · have answered := told ‹String› .armed none fun same => by cases same
      split <;> exact ⟨_, _, rfl, rfl, rfl, rfl, rfl, rfl, rfl, rfl, answered⟩
  · split <;> exact ⟨_, _, rfl, rfl, rfl, rfl, rfl, rfl, rfl, rfl, fun _ mem => .inl mem⟩
  · exact ⟨_, _, rfl, rfl, rfl, rfl, rfl, rfl, rfl, rfl, fun _ mem => .inl mem⟩

/-- A request is written where there was none. -/
theorem Alive.armed (alive : Alive w t) {asked : Option String}
    (task : t.task = .arming asked origin) (free : w.dir.armed t.pid = none)
    (own : r.nonce = t.nonce) (asks : r.updateId = asked) (recognises : recognised) :
    StepKeeps w (armedWith { w with dir := w.dir.setArmed t.pid (some (some r)) } t asked origin)
      recognised := by
  obtain ⟨t', acks, same, accepted⟩ :=
    exists_accepted { w with dir := w.dir.setArmed t.pid (some (some r)) } t asked origin
  rw [same]
  constructor
  · refine ⟨t', ⟨rfl, accepted.daemon.trans alive.daemon, accepted.disposed.trans alive.disposed,
      alive.secure, alive.enabled, fun r' takes => ?_, fun asked' asks' => ?_,
      fun spent => accepted.fence.trans (alive.fenced spent), fun ack mem failed => ?_⟩⟩
    · rw [accepted.request] at takes
      cases takes
    · rw [accepted.arms] at asks'
      cases asks'
    -- an answer that accepts is not one that failed
    · rcases accepted.acks ack mem with before | ⟨-, accepts⟩
      · exact alive.failed ack before failed
      · exact absurd failed.2.1 accepts
  · refine fun held => iff_of_true ⟨fun updateId acknowledged => ?_, fun ack mem failed => ?_⟩
      recognises
    · obtain ⟨ack, mem, accepts⟩ := acknowledged
      rcases accepted.acks ack mem with before | ⟨now, -⟩
      · -- what was pending before had no file, and is no restart that is being triggered
        rcases held.pending updateId ⟨ack, before, accepts⟩ with ⟨_, here, pending⟩ | spent
        · obtain rfl := Option.some.inj (alive.here.symm.trans here)
          rcases pending with ⟨r', there, -⟩ | ⟨r', killing, -⟩
          · rw [free] at there
            cases there
          · rw [task] at killing
            cases killing
        · exact .inr spent
      -- the update that is accepted now is the one in the new file
      · refine .inl ⟨t', rfl, .inl ⟨r, ?_, own.trans accepted.nonce.symm, ?_⟩⟩
        · rw [accepted.pid]
          exact if_pos rfl
        · rw [asks, now, accepts.2.1]
    · rcases accepted.acks ack mem with before | ⟨-, accepts⟩
      · exact held.armed ack before failed
      · exact accepts failed.2.1

/-- Arming keeps the commits exactly when a fleet commit finds no armed file. -/
theorem Alive.tryArm (alive : Alive w t) {asked : Option String}
    (task : t.task = .arming asked origin) (now : Int) :
    StepKeeps w (w.tryArm t asked origin now .absent)
      (∀ updateId, t.task = .arming (some updateId) .mesh → w.dir.armed t.pid = none) := by
  have killing : ∀ r, t.task ≠ .killing r := by
    rw [task]
    exact fun _ same => by cases same
  unfold Host.tryArm
  rw [enabledFor_of_alive alive, Bool.not_true, Bool.false_or]
  split
  · next taken =>
    have some_ : w.dir.armed t.pid ≠ none := Option.isSome_iff_ne_none.mp taken
    by_cases told : ∃ updateId, asked = some updateId ∧ origin = .mesh
    · obtain ⟨updateId, rfl, rfl⟩ := told
      exact alive.armFailed_mesh task fun free => some_ (free updateId task)
    · have untold : ∀ updateId, origin = .mesh → asked ≠ some updateId :=
        fun updateId mesh asks => told ⟨updateId, asks, mesh⟩
      have goes := alive.armFailed killing untold
      refine ⟨goes.alive, fun held => iff_of_true ((goes.held_iff held).mpr trivial) ?_⟩
      intro updateId same
      obtain ⟨asks, mesh⟩ := Task.arming.inj (task.symm.trans same)
      exact absurd asks (untold updateId mesh)
  · next free =>
    have free : w.dir.armed t.pid = none := by simpa using free
    exact alive.armed task free rfl rfl fun _ _ => free

/-! ## The gate -/

/-- The request of a deferred update is read again, and stays. -/
theorem Alive.refresh (alive : Alive w t) (killing : ∀ p, t.task ≠ .killing p)
    (open_ : t.fence = none) (recognises : recognised) :
    StepKeeps w (w.refresh t) recognised := by
  have unchanged : StepKeeps w (w.goTo t .rest) recognised := alive.pause killing rfl rfl recognises
  unfold Host.refresh
  split
  · next request there =>
    split
    · refine ⟨⟨{ t with task := .refreshing request }, (alive.keepsArmed killing).alive alive ?_ ?_⟩,
        fun held => iff_of_true ((alive.keepsArmed killing).held alive held) recognises⟩
      · rintro _ ⟨⟩
        exact ⟨open_, .inr there⟩
      · rintro _ ⟨⟩
    · exact unchanged
  · exact unchanged

/-- A refreshed file asks for the same update. -/
theorem Alive.rewrite (alive : Alive w t) (task : t.task = .refreshing r) (now : Int) :
    StepKeeps w (w.rewrite t r now .absent) True := by
  obtain ⟨-, ⟨p, killing, -⟩ | there⟩ := alive.carrying r (by rw [task]; rfl)
  · rw [task] at killing
    cases killing
  · refine alive.of_keepsArmed ⟨rfl, rfl, rfl, alive.disposed, id, alive.secure, alive.enabled,
      fun _ mem => mem, fun updateId armed => ?_, fun _ mem => .inl mem, by simp [task]⟩ rfl rfl
      trivial
    obtain ⟨request, here, own, asks⟩ := armed
    obtain rfl : r = request := by simpa [there] using here
    exact ⟨{ r with ts := now }, if_pos rfl, own, asks⟩

/-- The armed file is removed. -/
theorem Alive.disarmed_iff (alive : Alive w t) :
    Alive (({ w with dir := w.dir.disarm t.pid .absent } : Host).goTo t .rest)
        { t with task := .rest } ∧
      (w.Held → (Held (({ w with dir := w.dir.disarm t.pid .absent } : Host).goTo t .rest) ↔
        ∀ updateId, w.Acknowledged updateId →
          ∃ x ∈ w.restarts, x.request.updateId = some updateId)) := by
  refine ⟨⟨rfl, alive.daemon, alive.disposed, alive.secure, alive.enabled,
    fun r takes => (by cases takes), fun asked asks => (by cases asks), alive.fenced, alive.failed⟩,
    fun held => ⟨fun held' updateId acknowledged => ?_, fun spent => ⟨fun updateId acknowledged =>
      .inr (spent updateId acknowledged), held.armed⟩⟩⟩
  rcases held'.pending updateId acknowledged with ⟨_, ⟨⟩, ⟨r, there, -⟩ | ⟨r, killing, -⟩⟩ | spent
  · have gone : (w.dir.disarm t.pid .absent).armed t.pid = none := if_pos rfl
    cases gone.symm.trans there
  · cases killing
  · exact spent

/-- A file that is removed although no acknowledged update needs it. -/
theorem Alive.disarm (alive : Alive w t) (task : t.task = .gating)
    (unneeded : ∀ updateId, w.Acknowledged updateId → ¬w.ArmedFor t updateId)
    (recognises : recognised) :
    StepKeeps w (({ w with dir := w.dir.disarm t.pid .absent } : Host).goTo t .rest) recognised := by
  obtain ⟨alive', iff⟩ := alive.disarmed_iff
  refine ⟨⟨_, alive'⟩, fun held => iff_of_true ((iff held).mpr fun updateId acknowledged => ?_)
    recognises⟩
  rcases held.pending updateId acknowledged with ⟨_, here, armed | ⟨r, killing, -⟩⟩ | spent
  · obtain rfl := Option.some.inj (alive.here.symm.trans here)
    exact absurd armed (unneeded updateId acknowledged)
  · obtain rfl := Option.some.inj (alive.here.symm.trans here)
    rw [task] at killing
    cases killing
  · exact spent

/-- What it means for the armed restart to be this commit's, once the file is known. -/
theorem armedFor_iff (there : w.dir.armed t.pid = some (some r)) :
    w.ArmedFor t updateId ↔ r.nonce = t.nonce ∧ r.updateId = some updateId := by
  constructor
  · rintro ⟨r', there', own, asks⟩
    obtain rfl : r = r' := by simpa [there] using there'
    exact ⟨own, asks⟩
  · exact fun both => ⟨r, there, both⟩

/-- The gate recognises every acknowledged update that it reaches. -/
def GateRecognises (w : Host) (t : Target) : Prop :=
  t.fence = none → t.background = 0 → ∀ updateId, w.Acknowledged updateId →
    w.ArmedFor t updateId → w.dir.recognises t updateId = true

/-- The restart gate keeps the commits exactly when it recognises every acknowledged update that it
reaches. -/
theorem Alive.gate (alive : Alive w t) (task : t.task = .gating) (now : Int) :
    StepKeeps w (w.gate t now .absent) (GateRecognises w t) := by
  have killing : ∀ r, t.task ≠ .killing r := by
    rw [task]
    exact fun _ same => by cases same
  unfold Host.gate
  rw [alive.daemon, alive.disposed, alive.secure, alive.enabled]
  simp only [Bool.or_self, Bool.false_eq_true, if_false, Bool.not_true]
  split
  · next fenced => exact alive.pause killing rfl rfl fun open_ => by simp [open_] at fenced
  next unfenced =>
  have open_ : t.fence = none := by simpa using unfenced
  split
  · next busy => exact alive.refresh killing open_ fun _ idle => by simp [idle] at busy
  next quiet =>
  split
  · next r there =>
    split
    -- the file belongs to another process, so no update of this one is armed
    · next other =>
      have unneeded : ∀ updateId, ¬w.ArmedFor t updateId := fun updateId armed =>
        other ((armedFor_iff there).mp armed).1
      exact alive.disarm task (fun updateId _ => unneeded updateId) fun _ _ updateId _ armed =>
        absurd armed (unneeded updateId)
    next own =>
    -- the file is of this process: what it asks for decides
    have own : r.nonce = t.nonce := Classical.not_not.mp own
    split
    -- the request is not recognised, and its file is removed
    · next unknown =>
      obtain ⟨updateId, asks, unknown⟩ := (Option.any_eq_true _ _).mp unknown
      have armed : w.ArmedFor t updateId := (armedFor_iff there).mpr ⟨own, asks⟩
      obtain ⟨alive', iff⟩ := alive.disarmed_iff
      refine ⟨⟨_, alive'⟩, fun held => (iff held).trans ⟨fun spent _ _ asked acknowledged _ => ?_,
        fun recognises asked acknowledged => ?_⟩⟩
      · -- nothing is spent while no fence is up
        obtain ⟨x, mem, -⟩ := spent asked acknowledged
        have fenced := alive.fenced (List.ne_nil_of_mem mem)
        rw [open_] at fenced
        cases fenced
      · rcases held.pending asked acknowledged with ⟨_, here, pending | ⟨r', same, -⟩⟩ | spent
        · obtain rfl := Option.some.inj (alive.here.symm.trans here)
          have known := recognises open_ (Nat.eq_zero_of_not_pos quiet) asked acknowledged pending
          obtain rfl := Option.some.inj (asks.symm.trans ((armedFor_iff there).mp pending).2)
          simp [known] at unknown
        · obtain rfl := Option.some.inj (alive.here.symm.trans here)
          exact absurd same (killing r')
        · exact spent
    next known =>
    -- the request is recognised, hence every update that the file can be armed for
    have recognises : GateRecognises w t := by
      intro _ _ updateId _ armed
      have asks := ((armedFor_iff there).mp armed).2
      simpa [asks] using known
    split
    · next stale =>
      -- only a request without an update expires
      refine alive.disarm task (fun updateId _ armed => ?_) recognises
      have asks := ((armedFor_iff there).mp armed).2
      simp [expired, asks] at stale
    split
    · exact alive.refresh killing open_ recognises
    · refine ⟨⟨{ t with task := .claiming ⟨r, true⟩ }, (alive.keepsArmed killing).alive alive ?_ ?_⟩, fun held =>
        iff_of_true ((alive.keepsArmed killing).held alive held) recognises⟩
      · rintro _ ⟨⟩
        exact ⟨open_, .inr there⟩
      · rintro _ ⟨⟩
  · next unread =>
    refine alive.pause killing rfl rfl fun _ _ updateId _ armed => ?_
    obtain ⟨r, there, -⟩ := armed
    exact absurd there (unread r)

/-! ## A restart -/

section Prepared

variable {p : Passed}

/-- The handler goes on, with the request that stays in the armed file or without one. -/
theorem Alive.keepRequest {task : Task} (alive : Alive w t) (killing : ∀ p, t.task ≠ .killing p)
    (armed : dir.armed = w.dir.armed) (consumed : dir.consumed = w.dir.consumed)
    (secure : dir.secure = w.dir.secure) (enabled : dir.enabled = w.dir.enabled)
    (next : task.request? = none ∨ task.request? = t.task.request?) (arms : task.armsUpdate? = none)
    (recognises : recognised) :
    StepKeeps w (({ w with dir := dir } : Host).goTo t task) recognised := by
  have keeps : KeepsArmed w t dir { t with task := task } w.acks :=
    ⟨rfl, rfl, rfl, alive.disposed, id, secure.trans alive.secure, enabled.trans alive.enabled,
      fun marker mem => by rwa [consumed], fun updateId asks => by rwa [ArmedFor, armed],
      fun _ mem => .inl mem, killing⟩
  refine ⟨⟨_, keeps.alive alive (fun r' takes' => ?_) fun asked asks => ?_⟩, fun held =>
    iff_of_true (keeps.held alive held) recognises⟩
  · rcases next with none_ | same
    · cases none_.symm.trans takes'
    · obtain ⟨open_, ⟨p, kills, -⟩ | there⟩ := alive.carrying r' (same.symm.trans takes')
      · exact absurd kills (killing p)
      · refine ⟨open_, .inr ?_⟩
        rw [armed]
        exact there
  · cases arms.symm.trans asks

/-- Taking the armed file away keeps the commits: the task has taken over the request. -/
theorem Alive.disarming (alive : Alive w t) (task : t.task = .disarming p) :
    StepKeeps w (({ w with dir := w.dir.disarm t.pid .absent } : Host).goTo t (.killing p)) True := by
  obtain ⟨open_, ⟨p', kills, -⟩ | there⟩ := alive.carrying p.request (by rw [task]; rfl)
  · rw [task] at kills
    cases kills
  constructor
  · refine ⟨_, rfl, alive.daemon, alive.disposed, alive.secure, alive.enabled, ?_, ?_,
      alive.fenced, alive.failed⟩
    · rintro _ ⟨⟩
      exact ⟨open_, .inl ⟨p, rfl, rfl⟩⟩
    · rintro _ ⟨⟩
  · refine fun held => iff_of_true ⟨fun updateId acknowledged => ?_, held.armed⟩ trivial
    rcases held.pending updateId acknowledged with ⟨_, here, armed | ⟨p', killing, -⟩⟩ | spent
    · obtain rfl := Option.some.inj (alive.here.symm.trans here)
      exact .inl ⟨_, rfl, .inr ⟨p, rfl, ((armedFor_iff there).mp armed).2⟩⟩
    · obtain rfl := Option.some.inj (alive.here.symm.trans here)
      rw [task] at killing
      cases killing
    · exact .inr spent

/-- The kill keeps the commits: the update that it carries is among the restarts from now on. -/
theorem Alive.kill (alive : Alive w t) (task : t.task = .killing p) :
    StepKeeps w (w.kill t p) True := by
  obtain ⟨open_, -⟩ := alive.carrying p.request (by rw [task]; rfl)
  unfold Host.kill
  rw [open_]
  constructor
  · exact ⟨_, rfl, alive.daemon, alive.disposed, alive.secure, alive.enabled,
      fun r' takes => (by cases takes), fun asked asks => (by cases asks), fun _ => rfl,
      alive.failed⟩
  · refine fun held => iff_of_true ⟨fun updateId acknowledged => ?_, held.armed⟩ trivial
    rcases held.pending updateId acknowledged with ⟨_, here, armed | ⟨p', killing, asks⟩⟩ | spent
    · obtain rfl := Option.some.inj (alive.here.symm.trans here)
      exact .inl ⟨_, rfl, .inl armed⟩
    · obtain rfl := Option.some.inj (alive.here.symm.trans here)
      obtain rfl := Task.killing.inj (task.symm.trans killing)
      exact .inr ⟨_, List.mem_append_right _ (List.mem_singleton_self _), asks⟩
    · obtain ⟨x, mem, asks⟩ := spent
      exact .inr ⟨x, List.mem_append_left _ mem, asks⟩

end Prepared

/-! ## Every step -/

/-- What a step decides is what the side condition says of it. -/
theorem StepKeeps.congr {recognised' : Prop} (goes : StepKeeps w w' recognised)
    (same : recognised ↔ recognised') : StepKeeps w w' recognised' :=
  ⟨goes.alive, fun held => (goes.held_iff held).trans same⟩

/-- `Recognised` speaks of the gate and of a commit that arms, and of nothing else. -/
theorem recognised_iff (alive : Alive w t) (now : Int) :
    Recognised w (.advance now .absent) ↔ (t.task = .gating → GateRecognises w t) ∧
      ∀ updateId, t.task = .arming (some updateId) .mesh → w.dir.armed t.pid = none := by
  unfold Recognised
  rw [alive.here]
  constructor
  · exact fun all => all t rfl
  · rintro both _ ⟨⟩
    exact both

/-- Every task of a living host keeps the commits exactly when it recognises them. -/
theorem Alive.perform (alive : Alive w t) {now : Int}
    (taken : w.perform t now .absent = some w') :
    StepKeeps w w' (Recognised w (.advance now .absent)) := by
  -- one case for each task, in the order of `perform`
  rw [recognised_iff alive]
  unfold Host.perform at taken
  split at taken
  · cases taken
  · next updateId origin task =>
    cases taken
    refine (alive.consume ?_ updateId origin).congr ?_ <;> simp [task]
  · next asked origin task =>
    cases taken
    refine (alive.tryArm task now).congr ?_
    simp [task]
  · next task =>
    cases taken
    refine (alive.gate task now).congr ?_
    simp [task]
  · next r task =>
    cases taken
    exact (alive.rewrite task now).congr (by simp [task])
  · next p task =>
    cases taken
    have killing : ∀ p, t.task ≠ .killing p := by simp [task]
    -- the request in hand is the same before and after the claim
    have stays : ∀ p', t.task = .claiming p' → (Task.replacing p').request? = t.task.request? :=
      fun p' same => by rw [same]; rfl
    unfold Host.claim
    split
    · exact alive.keepRequest killing rfl rfl rfl rfl (.inl rfl) rfl (by simp [task])
    · exact alive.keepRequest killing rfl rfl rfl rfl (.inr (stays p task)) rfl (by simp [task])
  · next p task =>
    cases taken
    have killing : ∀ p, t.task ≠ .killing p := by simp [task]
    exact alive.keepRequest killing rfl rfl rfl rfl (.inr (by rw [task]; rfl)) rfl (by simp [task])
  · next p task =>
    cases taken
    have killing : ∀ p, t.task ≠ .killing p := by simp [task]
    -- and before and after the marker
    have stays : ∀ p', t.task = .marking p' → (Task.disarming p').request? = t.task.request? :=
      fun p' same => by rw [same]; rfl
    unfold Host.mark
    split
    · exact alive.keepRequest killing rfl rfl rfl rfl (.inl rfl) rfl (by simp [task])
    · exact alive.keepRequest killing rfl rfl rfl rfl (.inr (stays p task)) rfl (by simp [task])
  · next p task =>
    cases taken
    exact (alive.disarming task).congr (by simp [task])
  · next p task =>
    cases taken
    exact (alive.kill task).congr (by simp [task])
  · next marker task =>
    cases taken
    have killing : ∀ p, t.task ≠ .killing p := by simp [task]
    cases marker <;>
      exact alive.keepRequest killing rfl rfl rfl rfl (.inl rfl) rfl (by simp [task])
  · next task =>
    cases taken
    have killing : ∀ p, t.task ≠ .killing p := by simp [task]
    exact alive.keepRequest killing rfl rfl rfl rfl (.inl rfl) rfl (by simp [task])

/-- Another process changes files, whatever this one is doing. An armed file that is there stays. -/
theorem Alive.setDir (alive : Alive w t) (secure : dir.secure = true)
    (enabled : dir.enabled = true) (consumed : dir.consumed = w.dir.consumed)
    (armed : ∀ r, w.dir.armed t.pid = some (some r) → dir.armed t.pid = some (some r)) :
    StepKeeps w { w with dir := dir } True := by
  constructor
  · refine ⟨t, { alive with
      secure := secure
      enabled := enabled
      carrying := fun r takes => ?_
      arming := ?_
      failed := ?_ }⟩
    · obtain ⟨open_, kills | there⟩ := alive.carrying r takes
      · exact ⟨open_, .inl kills⟩
      · exact ⟨open_, .inr (armed r there)⟩
    · rw [consumed]
      exact alive.arming
    · rw [consumed]
      exact alive.failed
  · refine fun held => iff_of_true ⟨fun updateId acknowledged => ?_, held.armed⟩ trivial
    rcases held.pending updateId acknowledged with ⟨_, here, ⟨r, there, own, asks⟩ | kills⟩ | spent
    · obtain rfl := Option.some.inj (alive.here.symm.trans here)
      exact .inl ⟨t, here, .inl ⟨r, armed r there, own, asks⟩⟩
    · exact .inl ⟨_, here, .inr kills⟩
    · exact .inr spent

/-- Every handler of a living host keeps the commits. -/
theorem Alive.handle (alive : Alive w t) (rests : t.task = .rest) {event : FleetEvent}
    (steady : event.steady = true) (taken : w.handle t event = some w') : StepKeeps w w' True := by
  have killing : ∀ r, t.task ≠ .killing r := by simp [rests]
  -- the process goes on with another context, and begins at most an evaluation of the gate
  have goes : ∀ t', t'.pid = t.pid → t'.nonce = t.nonce → t'.daemon = t.daemon →
      t'.disposed = false → (t.fence = some .hotReload → t'.fence = some .hotReload) →
      t'.task.request? = none → t'.task.armsUpdate? = none →
      StepKeeps w { w with target := some t' } True := by
    intro t' pid nonce daemon disposed fence request arms
    exact alive.of_keepsArmed ⟨pid, nonce, daemon, disposed, fence, alive.secure, alive.enabled,
      fun _ mem => mem, fun _ armed => armed, fun _ mem => .inl mem, killing⟩ request arms trivial
  cases event with
  | sessionStarted =>
    cases taken
    split <;> exact goes _ rfl rfl rfl alive.disposed id rfl rfl
  | sessionEnded =>
    cases taken
    exact goes _ rfl rfl rfl alive.disposed id rfl rfl
  | request phase updateId =>
    cases taken
    exact alive.request rests phase updateId
  | armSelf updateId =>
    cases taken
    rw [enabledFor_of_alive alive]
    exact alive.pause killing rfl rfl trivial
  | armManual =>
    cases taken
    rw [alive.daemon]
    exact alive.pause killing rfl rfl trivial
  | settled =>
    cases taken
    exact goes _ rfl rfl rfl alive.disposed id rfl rfl
  | turn working =>
    cases taken
    exact goes _ rfl rfl rfl alive.disposed id rfl rfl
  | idled idle =>
    cases taken
    exact goes _ rfl rfl rfl alive.disposed id rfl rfl
  | background count =>
    cases taken
    split <;> exact goes _ rfl rfl rfl alive.disposed id rfl rfl
  | microtask =>
    simp only [Host.handle] at taken
    obtain ⟨_, rfl⟩ := Machine.of_guard taken
    split <;> exact goes _ rfl rfl rfl alive.disposed id rfl rfl
  | renamed address roomId =>
    cases taken
    exact goes _ rfl rfl rfl alive.disposed id rfl rfl
  | disposed disposed =>
    cases taken
    cases disposed with
    | true => cases steady
    | false => exact goes _ rfl rfl rfl rfl id rfl rfl
  | fenced fenced =>
    cases fenced with
    | true =>
      cases taken
      exact goes _ rfl rfl rfl alive.disposed (fun hot => by simp [hot]) rfl rfl
    | false =>
      cases taken
      exact goes _ rfl rfl rfl alive.disposed (fun hot => by simp [hot]) rfl rfl
  | _ => cases taken

/-- A sweep that spares the armed file leaves the toggle and the consumption markers alone, too. -/
theorem sweep_unarmed (dir : StateDir) (pid : Nat) (claimed marker : Bool) :
    (sweep dir pid false claimed marker).secure = dir.secure ∧
      (sweep dir pid false claimed marker).enabled = dir.enabled ∧
      (sweep dir pid false claimed marker).armed = dir.armed ∧
      (sweep dir pid false claimed marker).consumed = dir.consumed := by
  cases claimed <;> cases marker <;> exact ⟨rfl, rfl, rfl, rfl⟩

/-- The step lemma: one steady event keeps the commits of a living host exactly when it recognises
them. -/
theorem Alive.step (alive : Alive w t) {event : FleetEvent} (steady : event.steady = true)
    (taken : w.step event = some w') : StepKeeps w w' (Recognised w event) := by
  -- events that the process attends to only at rest
  have attended : ∀ event : FleetEvent, event.steady = true →
      (w.target.bind fun t => if t.task = .rest then w.handle t event else none) = some w' →
      StepKeeps w w' True := by
    intro event steady taken
    rw [alive.here, Option.bind_some] at taken
    split at taken
    · next rests => exact alive.handle rests steady taken
    · cases taken
  cases event with
  | spawned => cases steady
  | died => cases steady
  | armScript pid serial now =>
    simp only [Host.step] at taken
    split at taken
    · next free =>
      obtain ⟨nonce, -, rfl⟩ := Option.map_eq_some_iff.mp taken
      refine alive.setDir alive.secure alive.enabled rfl fun r there => ?_
      -- the script arms only where there is no file, hence for another process
      have other : t.pid ≠ pid := by
        rintro rfl
        cases free.symm.trans there
      exact (if_neg other).trans there
    · cases taken
  | toggled enabled =>
    cases enabled with
    | false => cases steady
    | true =>
      cases taken
      exact alive.setDir alive.secure rfl rfl fun _ there => there
  | swept pid armed claimed marker =>
    cases armed with
    | true => cases steady
    | false =>
      cases taken
      obtain ⟨secure, enabled, armed, consumed⟩ := sweep_unarmed w.dir pid claimed marker
      refine alive.setDir (secure.trans alive.secure) (enabled.trans alive.enabled) consumed ?_
      rw [armed]
      exact fun _ there => there
  | secured secure =>
    cases secure with
    | false => cases steady
    | true =>
      cases taken
      exact alive.setDir rfl alive.enabled rfl fun _ there => there
  | advance now fault =>
    obtain rfl := of_decide_eq_true steady
    obtain ⟨_, here, taken⟩ := Option.bind_eq_some_iff.mp taken
    obtain rfl := Option.some.inj (alive.here.symm.trans here)
    exact alive.perform taken
  | _ => exact attended _ steady taken

end Host

/-- A process that has just begun is alive. -/
theorem Begins.alive {w : Host} {t : Target} (begins : Begins w t) : w.Alive t :=
  { begins with
    carrying r takes := by
      rw [begins.rests] at takes
      cases takes
    arming updateId arms := by
      rw [begins.rests] at arms
      cases arms
    fenced spent := absurd begins.restarts spent
    failed ack mem := by
      rw [begins.acks] at mem
      cases mem }

/-- A process that has just begun has no commit to lose. -/
theorem Begins.kept {w : Host} {t : Target} (begins : Begins w t) : w.Kept := by
  constructor
  · rintro updateId ⟨ack, mem, -⟩
    rw [begins.acks] at mem
    cases mem
  · intro ack mem
    rw [begins.acks] at mem
    cases mem

/-- A step that is taken by a process that stays alive recognises what it reaches. -/
def Recognises (w : Host) (event : FleetEvent) : Prop :=
  ∀ w', steadyTarget.step w event = some w' → w.Recognised event

/-- In a run of one process, no commit is dropped in any state exactly when every gate that reaches
an acknowledged update recognises it, and no commit finds an armed file. -/
theorem commits_kept_iff {w : Host} {t : Target} (begins : Begins w t)
    (schedule : List FleetEvent) :
    steadyTarget.Throughout Host.Kept w schedule ↔ steadyTarget.Meets Recognises w schedule := by
  have goes : ∀ (w : Host) (event : FleetEvent) (w' : Host), (∃ t, w.Alive t) →
      steadyTarget.step w event = some w' → Host.StepKeeps w w' (Host.Recognised w event) := by
    rintro w event w' ⟨t, alive⟩ taken
    unfold steadyTarget at taken
    dsimp only at taken
    split at taken
    · next steady => exact alive.step steady taken
    · cases taken
  refine @Machine.throughout_iff_meets_within _ _ _ _ _ (fun w => ∃ t, w.Alive t) _ _
    (fun w event w' alive taken => (goes w event w' alive taken).alive) ?_ ?_ ⟨t, begins.alive⟩
    begins.kept
  · intro w event w' alive kept taken
    obtain ⟨⟨t', alive'⟩, held_iff⟩ := goes w event w' alive taken
    obtain ⟨t, alive⟩ := alive
    refine (alive'.kept_iff.trans (held_iff (alive.kept_iff.mp kept))).trans ?_
    exact ⟨fun recognised _ _ => recognised, fun recognises => recognises w' taken⟩
  · intro w event stuck w' taken
    cases stuck.symm.trans taken

/-- A process that has begun, in a directory with the toggle and nothing else. -/
def begun : Host :=
  ⟨⟨true, true, [], fun _ => none, fun _ => false, fun _ => false⟩,
    some ⟨7, 1, 0, false, false, none, none, some "room", false, true, 0, true, false, 0, .rest⟩,
    [1], [], []⟩

/-- The run of the example starts from such a process. -/
theorem begins_begun : ∃ t, Begins begun t :=
  ⟨_, rfl, rfl, rfl, rfl, rfl, rfl, rfl, rfl⟩

/-- The gate fails to recognise an update only if the armed file asks for it. -/
theorem gateRecognises_iff {w : Host} {t : Target} : w.GateRecognises t ↔
    ¬(t.fence = none ∧ t.background = 0 ∧ ∃ file ∈ w.dir.armed t.pid, ∃ r ∈ file,
      r.nonce = t.nonce ∧ ∃ updateId ∈ r.updateId, (∃ ack ∈ w.acks, ack.Accepts updateId) ∧
        w.dir.recognises t updateId = false) := by
  constructor
  · rintro recognises ⟨open_, quiet, file, there, r, here, own, updateId, asks, acknowledged,
      unknown⟩
    have armed : w.ArmedFor t updateId := by
      refine ⟨r, ?_, own, asks⟩
      rw [Option.mem_def.mp there, Option.mem_def.mp here]
    rw [recognises open_ quiet updateId acknowledged armed] at unknown
    cases unknown
  · rintro none_ open_ quiet updateId acknowledged ⟨r, there, own, asks⟩
    rw [← Bool.not_eq_false]
    intro unknown
    exact none_ ⟨open_, quiet, _, there, r, rfl, own, updateId, asks, acknowledged, unknown⟩

instance (ack : Ack) (updateId : String) : Decidable (ack.Accepts updateId) :=
  inferInstanceAs (Decidable (_ ∧ _ ∧ (_ ∨ _)))

instance (w : Host) (t : Target) : Decidable (w.GateRecognises t) :=
  decidable_of_iff _ gateRecognises_iff.symm

instance (w : Host) (t : Target) :
    Decidable (∀ updateId, t.task = .arming (some updateId) .mesh → w.dir.armed t.pid = none) :=
  decidable_of_iff (∀ updateId ∈ t.task.armsUpdate?, t.task = .arming (some updateId) .mesh →
      w.dir.armed t.pid = none)
    ⟨fun all updateId task => all updateId (by rw [task]; rfl) task,
      fun all updateId _ task => all updateId task⟩

instance (w : Host) : ∀ event, Decidable (w.Recognised event)
  | .advance _ .absent => inferInstanceAs (Decidable (∀ t ∈ w.target,
      (t.task = .gating → w.GateRecognises t) ∧
        ∀ updateId, t.task = .arming (some updateId) .mesh → w.dir.armed t.pid = none))
  | .advance _ .refused | .advance _ .torn | .spawned .. | .died | .sessionStarted | .sessionEnded
  | .request .. | .armSelf _ | .armManual | .armScript .. | .toggled _ | .swept .. | .secured _
  | .settled | .turn _ | .idled _ | .background _ | .microtask | .renamed .. | .disposed _
  | .fenced _ => .isTrue trivial

instance (w : Host) (event : FleetEvent) : Decidable (Recognises w event) :=
  decidable_of_iff ((steadyTarget.step w event).isSome = true → w.Recognised event)
    ⟨fun all _ taken => all (Option.isSome_of_eq_some taken), fun all some =>
      (Option.isSome_iff_exists.mp some).elim all⟩

/-- A commit that waits for a turn and then restarts the process, while the script would arm it once
more and another process sweeps. It is kept throughout, since every step recognises it. -/
theorem commits_kept_deferred :
    let schedule : List FleetEvent :=
      [.turn true, .request .commit "u", .advance 0 .absent, .advance 0 .absent, .turn false,
        .settled, .advance 600000 .absent, .swept 7 false true true, .advance 0 .absent,
        .advance 0 .absent, .advance 0 .absent, .advance 0 .absent, .armScript 7 0 0,
        .advance 0 .absent]
    ((steadyTarget.exec begun schedule).any fun w =>
        w.restarts.map (fun x => x.request.updateId) = [some "u"]) = true ∧
      steadyTarget.Meets Recognises begun schedule ∧
      steadyTarget.Throughout Host.Kept begun schedule := by
  intro schedule
  obtain ⟨t, begins⟩ := begins_begun
  have meets : steadyTarget.Meets Recognises begun schedule := by decide
  exact ⟨by decide, meets, (commits_kept_iff begins schedule).mpr meets⟩

/-- The room id that a process has when its agent settles is not the one that it had when it
accepted the commit, and a commit finds a manual arm. -/
theorem commits_dropped :
    (∃ w, steadyTarget.RunsTo Machine.Always begun w ∧ w.Acknowledged "u" ∧ ¬w.Pending "u") ∧
      ∃ w, steadyTarget.RunsTo Machine.Always begun w ∧
        ∃ ack ∈ w.acks, ack.ArmFailed ∧ ("room", ack.updateId) ∈ w.dir.consumed := by
  constructor
  -- the identity changes between the consumption and the gate
  · let schedule : List FleetEvent :=
      [.turn true, .request .commit "u", .advance 0 .absent, .advance 0 .absent, .turn false,
        .renamed (some "address") (some "room"), .settled, .advance 0 .absent]
    have ran : ((steadyTarget.exec begun schedule).any fun w =>
        decide (w.acks = [⟨.commit, "u", .deferred, some "turn active", some "room"⟩] ∧
          w.restarts = [] ∧ w.target.map (fun t => (t.task, w.dir.armed t.pid)) =
            some (.rest, none))) = true := by decide
    obtain ⟨w, executed, facts⟩ := (Option.any_eq_true _ _).mp ran
    obtain ⟨acks, restarts, target⟩ := of_decide_eq_true facts
    refine ⟨w, Machine.runsTo_always_of_exec executed,
      ⟨⟨.commit, "u", .deferred, some "turn active", some "room"⟩, ?_, rfl, rfl, .inr rfl⟩, ?_⟩
    · rw [acks]
      exact List.mem_singleton_self _
    · rintro (⟨t, here, pending⟩ | ⟨x, mem, -⟩)
      · rw [Option.mem_def.mp here, Option.map_some] at target
        obtain ⟨task, armed⟩ := Prod.mk.inj (Option.some.inj target)
        rcases pending with ⟨r, there, -⟩ | ⟨r, killing, -⟩
        · rw [armed] at there
          cases there
        · rw [task] at killing
          cases killing
      · rw [restarts] at mem
        cases mem
  -- the commit finds the file that the user has armed
  · let schedule : List FleetEvent :=
      [.armManual, .advance 0 .absent, .request .commit "u", .advance 0 .absent,
        .advance 0 .absent]
    have ran : ((steadyTarget.exec begun schedule).any fun w =>
        decide (w.acks = [⟨.commit, "u", .declined, some "arm failed", some "room"⟩] ∧
          w.dir.consumed = [("room", "u")])) = true := by decide
    obtain ⟨w, executed, facts⟩ := (Option.any_eq_true _ _).mp ran
    obtain ⟨acks, consumed⟩ := of_decide_eq_true facts
    refine ⟨w, Machine.runsTo_always_of_exec executed,
      ⟨.commit, "u", .declined, some "arm failed", some "room"⟩, ?_, ⟨rfl, rfl, rfl⟩, ?_⟩
    · rw [acks]
      exact List.mem_singleton_self _
    · rw [consumed]
      exact List.mem_singleton_self _

end OutpostPi.Fleet
