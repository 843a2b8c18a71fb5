import OutpostPi.Fleet.ArmFile

/-!
# A fleet update restarts a target at most once

What keeps a restart from happening twice is spread over several files. The consumption marker of
an update id is written before its armed file and is never removed, so the id is armed once. The
armed file carries the nonce of the process that wrote it, so no later process acts on it. The
process that has signalled itself is fenced, so it does not act on it again, even if the file could
not be removed.

- `Host.NoNewRequest` is what most steps do: they leave or remove requests, and begin nothing.
- `Host.Sound` is the invariant, which `Sound.of_noNewRequest` keeps for those steps and one lemma
  each for the others: a consumption, an arming by the process or by the script, a restart and a new
  process.
- `one_restart` is the theorem, for every run of a target whose identity is fixed.
-/

set_option autoImplicit false

namespace OutpostPi.Fleet

open OutpostPi.Lib

/-! ## Requests -/

/-- What the gate has let through, while the running handler prepares the restart. -/
def Task.passed? : Task → Option Passed
  | .claiming passed | .replacing passed | .marking passed | .disarming passed
  | .killing passed => some passed
  | _ => none

/-- The request that the running handler has taken from the armed file. -/
def Task.request? : Task → Option ArmRequest
  | .refreshing request => some request
  | task => task.passed?.map Passed.request

/-- The running handler is about to arm an update id. -/
def Task.armsUpdate? : Task → Option String
  | .arming updateId _ => updateId
  | _ => none

/-- The same request, written at another time. -/
structure ArmRequest.Like (r' r : ArmRequest) : Prop where
  nonce : r'.nonce = r.nonce
  updateId : r'.updateId = r.updateId
  armer : r'.armer = r.armer

theorem ArmRequest.Like.refl (r : ArmRequest) : r.Like r := ⟨rfl, rfl, rfl⟩

/-- The files of one directory are among those of another, and so are their consumptions the other
way round. -/
structure StateDir.Within (dir' dir : StateDir) : Prop where
  consumed : ∀ marker ∈ dir.consumed, marker ∈ dir'.consumed
  armed : ∀ pid r', dir'.armed pid = some (some r') →
    ∃ r, dir.armed pid = some (some r) ∧ r'.Like r

namespace StateDir

variable {dir dir' dir'' : StateDir} {pid : Nat}

theorem Within.refl (dir : StateDir) : dir.Within dir :=
  ⟨fun _ mem => mem, fun _ r there => ⟨r, there, .refl r⟩⟩

theorem Within.trans (first : dir'.Within dir) (second : dir''.Within dir') :
    dir''.Within dir := by
  refine ⟨fun marker mem => second.consumed marker (first.consumed marker mem), ?_⟩
  intro pid r'' there
  obtain ⟨r', there, again⟩ := second.armed pid r'' there
  obtain ⟨r, there, same⟩ := first.armed pid r' there
  exact ⟨r, there, again.nonce.trans same.nonce, again.updateId.trans same.updateId,
    again.armer.trans same.armer⟩

/-- A file that is removed, or torn, holds no request. -/
theorem within_setArmed {file : Option (Option ArmRequest)} (unread : ∀ r, file ≠ some (some r)) :
    (dir.setArmed pid file).Within dir := by
  refine ⟨fun _ mem => mem, fun other r' there => ?_⟩
  unfold setArmed at there
  dsimp only at there
  split at there
  · exact absurd there (unread r')
  · exact ⟨r', there, .refl r'⟩

/-- Disarming brings no request. -/
theorem within_disarm (dir : StateDir) (pid : Nat) (fault : Fault) :
    (dir.disarm pid fault).Within dir := by
  unfold disarm
  split
  · exact within_setArmed fun r same => by cases same
  · exact .refl dir

end StateDir

namespace Host

variable {w w' : Host} {t t' : Target} {dir : StateDir} {updateId : String} {r : ArmRequest}

/-- A request is in a file, or in the hands of the running process. -/
def Holds (w : Host) (r : ArmRequest) : Prop :=
  (∃ pid, w.dir.armed pid = some (some r)) ∨ ∃ t ∈ w.target, t.task.request? = some r

/-- The gate was open for a request. -/
structure Ready (t : Target) (p : Passed) : Prop where
  nonce : p.request.nonce = t.nonce
  idle : t.idle = true
  background : t.background = 0
  enabled : p.enabled = true

/-- The process goes on with the same nonce and identity, and is fenced if it was. -/
structure Follows (t' t : Target) : Prop where
  nonce : t'.nonce = t.nonce
  serial : t'.serial = t.serial
  identity : t'.identity = t.identity
  fence : t.fence = some .hotReload → t'.fence = some .hotReload

/-- A step that writes no new request, consumes nothing and restarts nothing. -/
structure NoNewRequest (w w' : Host) : Prop where
  nonces : w'.nonces = w.nonces
  restarts : w'.restarts = w.restarts
  consumed : ∀ marker ∈ w.dir.consumed, marker ∈ w'.dir.consumed
  holds : ∀ r', w'.Holds r' → ∃ r, w.Holds r ∧ r'.Like r
  target : ∀ t' ∈ w'.target, ∃ t ∈ w.target, Follows t' t
  ready : ∀ t' ∈ w'.target, ∀ p, t'.task.passed? = some p → Ready t' p

/-! ## The invariant -/

/-- A consumption marker of the update id is there, under the identity of the target. -/
def Consumed (identity : Option String) (w : Host) (updateId : String) : Prop :=
  ∃ key ∈ identity.filter (· ≠ ""), (key, updateId) ∈ w.dir.consumed

/-- The update is consumed, but nothing has come of it. -/
structure Unarmed (identity : Option String) (w : Host) (updateId : String) : Prop where
  consumed : Consumed identity w updateId
  unheld : ∀ r, w.Holds r → r.updateId ≠ some updateId
  unspent : ∀ x ∈ w.restarts, x.request.updateId ≠ some updateId

structure Sound (identity : Option String) (w : Host) : Prop where
  issued : w.nonces.Nodup
  named : ∀ t ∈ w.target, t.identity = identity
  running : ∀ t ∈ w.target, w.nonces[t.serial]? = some t.nonce
  written : ∀ r, w.Holds r → w.nonces[r.armer]? = some r.nonce
  /-- A request of an update is consumed. -/
  consumed : ∀ r, w.Holds r → ∀ updateId, r.updateId = some updateId → Consumed identity w updateId
  /-- Only one process has armed an update. -/
  agree : ∀ r, w.Holds r → ∀ r', w.Holds r' → ∀ updateId, r.updateId = some updateId →
    r'.updateId = some updateId → r.nonce = r'.nonce
  /-- An update that is about to be armed is consumed, and has not been armed before. -/
  arming : ∀ t ∈ w.target, ∀ updateId, t.task.armsUpdate? = some updateId →
    Unarmed identity w updateId
  /-- An update that has restarted the target is held by that process only. -/
  spent : ∀ x ∈ w.restarts, ∀ updateId, x.request.updateId = some updateId →
    Consumed identity w updateId ∧ ∀ r, w.Holds r → r.updateId = some updateId → r.nonce = x.nonce
  /-- The process that has signalled itself is fenced. -/
  fenced : ∀ x ∈ w.restarts, x.nonce ∈ w.nonces ∧
    ∀ t ∈ w.target, t.nonce = x.nonce → t.fence = some .hotReload
  ready : ∀ t ∈ w.target, ∀ p, t.task.passed? = some p → Ready t p
  gated : ∀ x ∈ w.restarts, x.idle = true ∧ x.background = 0 ∧ x.enabled = true ∧
    x.request.nonce = x.nonce ∧ x.request.armer = x.serial
  once : ∀ updateId,
    (w.restarts.filter fun x => x.request.updateId = some updateId).length ≤ 1

variable {identity : Option String}

/-- A consumed update stays consumed. -/
theorem Consumed.mono (more : ∀ marker ∈ w.dir.consumed, marker ∈ w'.dir.consumed)
    (consumed : Consumed identity w updateId) : Consumed identity w' updateId := by
  obtain ⟨key, named, mem⟩ := consumed
  exact ⟨key, named, more _ mem⟩

/-- A step that brings no request keeps the fence, if what is being armed is not armed yet. -/
theorem Sound.of_noNewRequest (sound : Sound identity w) (noNew : NoNewRequest w w')
    (arming : ∀ t' ∈ w'.target, ∀ updateId, t'.task.armsUpdate? = some updateId →
      Unarmed identity w' updateId) : Sound identity w' where
  issued := by
    rw [noNew.nonces]
    exact sound.issued
  named t' here := by
    obtain ⟨t, there, follows⟩ := noNew.target t' here
    exact follows.identity.trans (sound.named t there)
  running t' here := by
    obtain ⟨t, there, follows⟩ := noNew.target t' here
    rw [noNew.nonces, follows.nonce, follows.serial]
    exact sound.running t there
  written r' held := by
    obtain ⟨r, there, like⟩ := noNew.holds r' held
    rw [noNew.nonces, like.nonce, like.armer]
    exact sound.written r there
  consumed r' held updateId asks := by
    obtain ⟨r, there, like⟩ := noNew.holds r' held
    exact (sound.consumed r there updateId (like.updateId.symm.trans asks)).mono noNew.consumed
  -- every request that is held now is like one that was held before
  agree r₁ held₁ r₂ held₂ updateId asks₁ asks₂ := by
    obtain ⟨r, there, like⟩ := noNew.holds r₁ held₁
    obtain ⟨r', there', like'⟩ := noNew.holds r₂ held₂
    rw [like.nonce, like'.nonce]
    exact sound.agree r there r' there' updateId (like.updateId.symm.trans asks₁)
      (like'.updateId.symm.trans asks₂)
  arming := arming
  spent x mem updateId asks := by
    rw [noNew.restarts] at mem
    obtain ⟨consumed, only⟩ := sound.spent x mem updateId asks
    refine ⟨consumed.mono noNew.consumed, fun r' held asks' => ?_⟩
    obtain ⟨r, there, like⟩ := noNew.holds r' held
    exact like.nonce.trans (only r there (like.updateId.symm.trans asks'))
  fenced x mem := by
    rw [noNew.restarts] at mem
    obtain ⟨known, fenced⟩ := sound.fenced x mem
    refine ⟨by rwa [noNew.nonces], fun t' here same => ?_⟩
    obtain ⟨t, there, follows⟩ := noNew.target t' here
    exact follows.fence (fenced t there (follows.nonce.symm.trans same))
  ready := noNew.ready
  gated := by
    rw [noNew.restarts]
    exact sound.gated
  once := by
    rw [noNew.restarts]
    exact sound.once

/-- A step that begins nothing keeps the invariant. -/
theorem Sound.of_noNewRequest_of_unarming (sound : Sound identity w) (noNew : NoNewRequest w w')
    (unarming : ∀ t' ∈ w'.target, t'.task.armsUpdate? = none) : Sound identity w' := by
  refine sound.of_noNewRequest noNew fun t' here updateId arms => ?_
  rw [unarming t' here] at arms
  cases arms

/-- An update that nothing has come of stays so. -/
theorem Unarmed.mono (unarmed : Unarmed identity w updateId) (noNew : NoNewRequest w w') :
    Unarmed identity w' updateId where
  consumed := unarmed.consumed.mono noNew.consumed
  unheld r' held := by
    obtain ⟨r, there, like⟩ := noNew.holds r' held
    rw [like.updateId]
    exact unarmed.unheld r there
  unspent := by
    rw [noNew.restarts]
    exact unarmed.unspent

/-! ## Steps that begin nothing -/

theorem Follows.refl (t : Target) : Follows t t := ⟨rfl, rfl, rfl, id⟩

variable {acks : List Ack}

/-- A step of the target that keeps within the files and the requests that were there brings
none. -/
theorem noNewRequest_to (here : w.target = some t) (within : dir.Within w.dir)
    (follows : Follows t' t) (taken : ∀ r, t'.task.request? = some r → w.Holds r)
    (ready : ∀ p, t'.task.passed? = some p → Ready t' p) :
    NoNewRequest w { w with dir := dir, target := some t', acks := acks } where
  nonces := rfl
  restarts := rfl
  consumed := within.consumed
  holds r' held := by
    rcases held with ⟨pid, there⟩ | ⟨_, ⟨⟩, takes⟩
    · obtain ⟨r, there, like⟩ := within.armed pid r' there
      exact ⟨r, .inl ⟨pid, there⟩, like⟩
    · exact ⟨r', taken r' takes, .refl r'⟩
  target := by
    rintro _ ⟨⟩
    exact ⟨t, here, follows⟩
  ready := by
    rintro _ ⟨⟩
    exact ready

/-- A handler without a request prepares no restart. -/
theorem passed?_of_request? {task : Task} (request : task.request? = none) :
    task.passed? = none := by
  cases task with
  | refreshing request => cases request
  | _ => first | rfl | cases request

/-- The handler ends, or goes on without a request. -/
theorem Sound.pause (sound : Sound identity w) (here : w.target = some t)
    (within : dir.Within w.dir) (follows : Follows t' t) (request : t'.task.request? = none)
    (arms : t'.task.armsUpdate? = none) :
    Sound identity { w with dir := dir, target := some t', acks := acks } := by
  refine sound.of_noNewRequest_of_unarming
    (noNewRequest_to here within follows (fun r takes => ?_) fun p passes => ?_) ?_
  · rw [request] at takes
    cases takes
  · rw [passed?_of_request? request] at passes
    cases passes
  · rintro _ ⟨⟩
    exact arms

/-- The handler goes on with the request that it has taken. -/
theorem Sound.keepRequest {task : Task} {p : Passed} (sound : Sound identity w)
    (here : w.target = some t) (within : dir.Within w.dir) (held : w.Holds p.request)
    (ready : Ready t p) (passes : task.passed? = some p)
    (request : task.request? = some p.request) (arms : task.armsUpdate? = none) :
    Sound identity ({ w with dir := dir }.goTo t task) := by
  refine sound.of_noNewRequest_of_unarming
    (noNewRequest_to here within ⟨rfl, rfl, rfl, id⟩ (fun r takes => ?_) fun p' passes' => ?_) ?_
  · cases request.symm.trans takes
    exact held
  · cases passes.symm.trans passes'
    exact { ready with }
  · rintro _ ⟨⟩
    exact arms

/-- Files are removed by another process, whatever this one is doing. -/
theorem Sound.setDir (sound : Sound identity w) (within : dir.Within w.dir) :
    Sound identity { w with dir := dir } := by
  have noNew : NoNewRequest w { w with dir := dir } := by
    refine ⟨rfl, rfl, within.consumed, fun r' held => ?_, fun t' here => ⟨t', here, .refl t'⟩,
      sound.ready⟩
    rcases held with ⟨pid, there⟩ | takes
    · obtain ⟨r, there, like⟩ := within.armed pid r' there
      exact ⟨r, .inl ⟨pid, there⟩, like⟩
    · exact ⟨r', .inr takes, .refl r'⟩
  exact sound.of_noNewRequest noNew fun t' here updateId arms =>
    (sound.arming t' here updateId arms).mono noNew

/-- The script arms a process without an update. -/
theorem Sound.armScript (sound : Sound identity w) (pid : Nat)
    (written : w.nonces[r.armer]? = some r.nonce) (manual : r.updateId = none) :
    Sound identity { w with dir := w.dir.setArmed pid (some (some r)) } := by
  have held : ∀ r', Holds { w with dir := w.dir.setArmed pid (some (some r)) } r' →
      r' = r ∨ w.Holds r' := by
    rintro r' (⟨other, there⟩ | takes)
    · unfold StateDir.setArmed at there
      dsimp only at there
      split at there
      · cases there
        exact .inl rfl
      · exact .inr (.inl ⟨other, there⟩)
    · exact .inr (.inr takes)
  -- a request with an update was there before
  have before : ∀ r', Holds { w with dir := w.dir.setArmed pid (some (some r)) } r' →
      ∀ updateId, r'.updateId = some updateId → w.Holds r' := by
    intro r' held' updateId asks
    refine (held r' held').resolve_left ?_
    rintro rfl
    cases manual.symm.trans asks
  constructor
  case issued => exact sound.issued
  case named => exact sound.named
  case running => exact sound.running
  case written =>
    intro r' held'
    obtain rfl | held' := held r' held'
    · exact written
    · exact sound.written r' held'
  case consumed =>
    exact fun r' held' updateId asks => sound.consumed r' (before r' held' updateId asks) updateId asks
  case agree =>
    intro r₁ held₁ r₂ held₂ updateId asks₁ asks₂
    exact sound.agree r₁ (before r₁ held₁ updateId asks₁) r₂ (before r₂ held₂ updateId asks₂)
      updateId asks₁ asks₂
  case arming =>
    intro t' here updateId arms
    obtain ⟨consumed, unheld, unspent⟩ := sound.arming t' here updateId arms
    exact ⟨consumed, fun r' held' asks => unheld r' (before r' held' updateId asks) asks, unspent⟩
  case spent =>
    intro x mem updateId asks
    obtain ⟨consumed, only⟩ := sound.spent x mem updateId asks
    exact ⟨consumed, fun r' held' asks' => only r' (before r' held' updateId asks') asks'⟩
  case fenced => exact sound.fenced
  case ready => exact sound.ready
  case gated => exact sound.gated
  case once => exact sound.once

/-! ## The gate -/

/-- The file of the target is read again, and rewritten. -/
theorem Sound.refresh (sound : Sound identity w) (here : w.target = some t) :
    Sound identity (w.refresh t) := by
  have rest : Sound identity (w.goTo t .rest) :=
    sound.pause here (.refl w.dir) ⟨rfl, rfl, rfl, id⟩ rfl rfl
  unfold Host.refresh
  split
  · next request there =>
    split
    · refine sound.of_noNewRequest_of_unarming
        (noNewRequest_to here (.refl w.dir) ⟨rfl, rfl, rfl, id⟩ (fun r takes => ?_) nofun) ?_
      · cases takes
        exact .inl ⟨_, there⟩
      · rintro _ ⟨⟩
        rfl
    · exact rest
  · exact rest

/-- A refreshed request is like the one that it was read from. -/
theorem Sound.rewrite (sound : Sound identity w) (here : w.target = some t)
    (task : t.task = .refreshing r) (now : Int) (fault : Fault) :
    Sound identity (w.rewrite t r now fault) := by
  have taken : w.Holds r := by
    refine .inr ⟨t, here, ?_⟩
    rw [task]
    rfl
  cases fault with
  | refused => exact sound.pause here (.refl w.dir) ⟨rfl, rfl, rfl, id⟩ rfl rfl
  | torn =>
    exact sound.pause here (StateDir.within_setArmed fun r same => by cases same)
      ⟨rfl, rfl, rfl, id⟩ rfl rfl
  | absent =>
    refine sound.of_noNewRequest_of_unarming ⟨rfl, rfl, fun _ mem => mem, ?_, ?_, ?_⟩ ?_
    · rintro r' (⟨pid, there⟩ | ⟨_, ⟨⟩, takes⟩)
      · simp only [Host.rewrite, Host.goTo, StateDir.setArmed] at there
        split at there
        · cases there
          exact ⟨r, taken, rfl, rfl, rfl⟩
        · exact ⟨r', .inl ⟨pid, there⟩, .refl r'⟩
      · cases takes
    · rintro _ ⟨⟩
      exact ⟨t, here, rfl, rfl, rfl, id⟩
    · rintro _ ⟨⟩ p passes
      cases passes
    · rintro _ ⟨⟩
      rfl

/-- The gate lets a request of this process pass, and drops any other. -/
theorem Sound.gate (sound : Sound identity w) (here : w.target = some t) (now : Int)
    (fault : Fault) : Sound identity (w.gate t now fault) := by
  have rest : Sound identity (w.goTo t .rest) :=
    sound.pause here (.refl w.dir) ⟨rfl, rfl, rfl, id⟩ rfl rfl
  have disarmed : Sound identity
      ({ w with dir := w.dir.disarm t.pid fault }.goTo t .rest) :=
    sound.pause here (StateDir.within_disarm _ _ _) ⟨rfl, rfl, rfl, id⟩ rfl rfl
  have refreshed : Sound identity (w.refresh t) := sound.refresh here
  unfold Host.gate
  split
  · exact rest
  split
  · exact rest
  split
  · exact rest
  next protected_ =>
  split
  · exact refreshed
  next background =>
  split
  · next request there =>
    split
    · exact disarmed
    next own =>
    split
    · exact disarmed
    split
    · exact disarmed
    split
    · exact refreshed
    next idle =>
    -- past all checks: the request is the one in the file, and the checks are what it has passed
    refine sound.keepRequest here (.refl w.dir) (.inl ⟨_, there⟩)
      ⟨Classical.not_not.mp own, ?_, ?_, ?_⟩ rfl rfl rfl
    · simpa using idle
    · exact Nat.eq_zero_of_not_pos background
    · have both : w.dir.secure = true ∧ w.dir.enabled = true := by simpa using protected_
      exact both.2
  · exact rest

section Prepared

variable {p : Passed}

/-- A request that is prepared for a restart is in the hands of the process. -/
theorem holds_of_passed (here : w.target = some t) (passes : t.task.passed? = some p) :
    w.Holds p.request := by
  refine .inr ⟨t, here, ?_⟩
  cases task : t.task with
  | refreshing request =>
    rw [task] at passes
    cases passes
  | _ =>
    rw [task] at passes
    exact congrArg (Option.map Passed.request) passes

/-- The next file operation of a restart keeps the invariant, where it is on other files. -/
theorem Sound.prepare {task : Task} (sound : Sound identity w) (here : w.target = some t)
    (before : t.task.passed? = some p) (within : dir.Within w.dir) (after : task.passed? = some p)
    (request : task.request? = some p.request) (arms : task.armsUpdate? = none) :
    Sound identity ({ w with dir := dir }.goTo t task) :=
  sound.keepRequest here within (holds_of_passed here before) (sound.ready t here p before) after
    request arms

theorem within_setClaimed (dir : StateDir) (pid : Nat) (there : Bool) :
    (dir.setClaimed pid there).Within dir :=
  ⟨fun _ mem => mem, (StateDir.Within.refl dir).armed⟩

theorem within_setMarker (dir : StateDir) (pid : Nat) (there : Bool) :
    (dir.setMarker pid there).Within dir :=
  ⟨fun _ mem => mem, (StateDir.Within.refl dir).armed⟩

/-- Removing the claimed file brings no request. -/
theorem within_unclaim (dir : StateDir) (pid : Nat) (fault : Fault) :
    (dir.unclaim pid fault).Within dir := by
  unfold StateDir.unclaim
  split
  · exact within_setClaimed dir pid false
  · exact .refl dir

/-- Removing the marker brings no request. -/
theorem within_unmark (dir : StateDir) (pid : Nat) (fault : Fault) :
    (dir.unmark pid fault).Within dir := by
  unfold StateDir.unmark
  split
  · exact within_setMarker dir pid false
  · exact .refl dir

/-- The request that has passed is claimed. -/
theorem Sound.claim (sound : Sound identity w) (here : w.target = some t)
    (task : t.task = .claiming p) (fault : Fault) : Sound identity (w.claim t p fault) := by
  have passes : t.task.passed? = some p := by rw [task, Task.passed?]
  unfold Host.claim
  split
  · exact sound.pause here (.refl w.dir) ⟨rfl, rfl, rfl, id⟩ rfl rfl
  · cases fault with
    | absent => exact sound.prepare here passes (within_setClaimed _ _ _) rfl rfl rfl
    | refused => exact sound.pause here (.refl w.dir) ⟨rfl, rfl, rfl, id⟩ rfl rfl
    | torn => exact sound.pause here (within_setClaimed _ _ _) ⟨rfl, rfl, rfl, id⟩ rfl rfl

/-- The restart marker is written. -/
theorem Sound.mark (sound : Sound identity w) (here : w.target = some t)
    (task : t.task = .marking p) (fault : Fault) : Sound identity (w.mark t p fault) := by
  have passes : t.task.passed? = some p := by rw [task, Task.passed?]
  unfold Host.mark
  split
  · exact sound.pause here (.refl w.dir) ⟨rfl, rfl, rfl, id⟩ rfl rfl
  · cases fault with
    | absent => exact sound.prepare here passes (within_setMarker _ _ _) rfl rfl rfl
    | refused => exact sound.pause here (.refl w.dir) ⟨rfl, rfl, rfl, id⟩ rfl rfl
    | torn => exact sound.pause here (within_setMarker _ _ _) ⟨rfl, rfl, rfl, id⟩ rfl rfl

/-! ## A restart -/

/-- A restart takes place for a request that no process has restarted for. -/
theorem Sound.unspent (sound : Sound identity w) (here : w.target = some t)
    (passes : t.task.passed? = some p) (open_ : t.fence = none)
    (asks : p.request.updateId = some updateId) :
    ∀ x ∈ w.restarts, x.request.updateId ≠ some updateId := by
  intro x mem spent
  have held := holds_of_passed here passes
  have same := (sound.spent x mem updateId spent).2 p.request held asks
  have own := (sound.ready t here p passes).nonce
  have fenced := (sound.fenced x mem).2 t here (own.symm.trans same)
  rw [open_] at fenced
  cases fenced

/-- The nonce of a process tells which one it is. -/
theorem Sound.armer_eq (sound : Sound identity w) (here : w.target = some t) (held : w.Holds r)
    (own : r.nonce = t.nonce) : r.armer = t.serial := by
  have written := sound.written r held
  have running := sound.running t here
  rw [own] at written
  exact (List.getElem?_inj (List.getElem?_eq_some_iff.mp written).1 sound.issued).mp
    (written.trans running.symm)

/-- The restart is triggered, and the request is spent. -/
theorem Sound.kill (sound : Sound identity w) (here : w.target = some t)
    (task : t.task = .killing p) : Sound identity (w.kill t p) := by
  have passes : t.task.passed? = some p := by rw [task, Task.passed?]
  have held := holds_of_passed here passes
  have ready := sound.ready t here p passes
  unfold Host.kill
  split
  · exact sound.pause here (.refl w.dir) ⟨rfl, rfl, rfl, id⟩ rfl rfl
  next unfenced =>
  have open_ : t.fence = none := by simpa using unfenced
  have paused : Sound identity (w.goTo { t with fence := some .hotReload } .rest) :=
    sound.pause here (.refl w.dir) ⟨rfl, rfl, rfl, fun _ => rfl⟩ rfl rfl
  -- the fence goes up and the task is over, so the process holds less than before
  have fewer : ∀ r', (w.goTo { t with fence := some .hotReload } .rest).Holds r' → w.Holds r' := by
    rintro r' (⟨pid, there⟩ | ⟨_, ⟨⟩, takes'⟩)
    · exact .inl ⟨pid, there⟩
    · cases takes'
  refine ⟨paused.issued, paused.named, paused.running, paused.written, paused.consumed,
    paused.agree, ?_, ?_, ?_, ?_, ?_, ?_⟩
  · rintro _ ⟨⟩ updateId arms
    cases arms
  -- spent: whatever still asks for the same update is of the nonce that is killed
  · intro x mem updateId asks
    rcases List.mem_append.mp mem with earlier | now
    · exact paused.spent x earlier updateId asks
    · obtain rfl := List.mem_singleton.mp now
      refine ⟨sound.consumed _ held updateId asks, fun r' held' asks' => ?_⟩
      exact (sound.agree r' (fewer r' held') _ held updateId asks' asks).trans ready.nonce
  · intro x mem
    rcases List.mem_append.mp mem with earlier | now
    · exact paused.fenced x earlier
    · obtain rfl := List.mem_singleton.mp now
      exact ⟨List.mem_of_getElem? (sound.running t here), fun t' here' _ => by cases here'; rfl⟩
  · rintro _ ⟨⟩ r' takes'
    cases takes'
  · intro x mem
    rcases List.mem_append.mp mem with earlier | now
    · exact paused.gated x earlier
    · obtain rfl := List.mem_singleton.mp now
      exact ⟨ready.idle, ready.background, ready.enabled, ready.nonce,
        sound.armer_eq here held ready.nonce⟩
  -- once: without a fence, no restart has spent the update before
  · intro updateId
    show ((w.restarts ++ [_]).filter _).length ≤ 1
    rw [List.filter_append, List.length_append]
    by_cases asks : p.request.updateId = some updateId
    · have none_ : w.restarts.filter (fun x => x.request.updateId = some updateId) = [] := by
        refine List.filter_eq_nil_iff.mpr fun x mem => ?_
        simpa using sound.unspent here passes open_ asks x mem
      rw [none_, List.length_nil, Nat.zero_add]
      exact List.length_filter_le _ _
    · simpa [asks] using sound.once updateId

end Prepared

/-! ## A consumption -/

/-- A consumed update is refused. -/
theorem Sound.refused (sound : Sound identity w) (here : w.target = some t)
    (within : dir.Within w.dir) (updateId : String) (origin : Origin) :
    Sound identity ({ w with dir := dir }.refused t updateId origin) := by
  unfold Host.refused
  dsimp only
  split <;> exact sound.pause here within ⟨rfl, rfl, rfl, id⟩ rfl rfl

/-- An update that is not consumed has not been armed. -/
theorem Sound.unarmed (sound : Sound identity w) (fresh : ¬Consumed identity w updateId) :
    (∀ r, w.Holds r → r.updateId ≠ some updateId) ∧
      ∀ x ∈ w.restarts, x.request.updateId ≠ some updateId :=
  ⟨fun r held asks => fresh (sound.consumed r held updateId asks),
    fun x mem asks => fresh (sound.spent x mem updateId asks).1⟩

theorem within_consumed (dir : StateDir) (marker : String × String) :
    StateDir.Within { dir with consumed := dir.consumed ++ [marker] } dir :=
  ⟨fun _ mem => List.mem_append_left _ mem, fun _ r there => ⟨r, there, .refl r⟩⟩

/-- An update is consumed before it is armed. -/
theorem Sound.consume (sound : Sound identity w) (here : w.target = some t) (updateId : String)
    (origin : Origin) (fault : Fault) : Sound identity (w.consume t updateId origin fault) := by
  have refused := sound.refused here (.refl w.dir) updateId origin
  unfold Host.consume
  split
  · exact refused
  next key named =>
  split
  · exact refused
  next admitted =>
  cases fault with
  | refused => exact refused
  | torn => exact sound.refused here (within_consumed _ _) updateId origin
  | absent =>
    have fresh : ¬Consumed identity w updateId := by
      rintro ⟨other, other', mem⟩
      have same : t.key = some other := by
        rw [Target.key, sound.named t here]
        exact other'
      obtain rfl := Option.some.inj (named.symm.trans same)
      simp [mem] at admitted
    obtain ⟨unheld, unspent⟩ := sound.unarmed fresh
    refine sound.of_noNewRequest
      (noNewRequest_to here (within_consumed _ _) ⟨rfl, rfl, rfl, id⟩ ?_ ?_) ?_
    · intro r takes
      cases takes
    · intro p passes
      cases passes
    · rintro _ ⟨⟩ other ⟨⟩
      refine ⟨⟨key, ?_, List.mem_append_right _ (List.mem_singleton_self _)⟩, ?_, unspent⟩
      · rw [← sound.named t here]
        exact named
      · rintro r (there | ⟨_, ⟨⟩, takes⟩)
        · exact unheld r (.inl there)
        · cases takes

/-! ## An arming -/

/-- An update that cannot be armed stays consumed. -/
theorem Sound.armFailed (sound : Sound identity w) (here : w.target = some t)
    (within : dir.Within w.dir) (updateId : Option String) (origin : Origin) :
    Sound identity ({ w with dir := dir }.armFailed t updateId origin) := by
  unfold Host.armFailed
  dsimp only
  split <;> exact sound.pause here within ⟨rfl, rfl, rfl, id⟩ rfl rfl

/-- What follows an arming leaves the files alone. -/
theorem exists_armedWith (w : Host) (t : Target) (updateId : Option String) (origin : Origin) :
    ∃ t' acks, w.armedWith t updateId origin = { w with target := some t', acks := acks } ∧
      Follows t' t ∧ t'.task.request? = none ∧ t'.task.armsUpdate? = none := by
  unfold armedWith
  split
  · split
    · exact ⟨_, _, rfl, ⟨rfl, rfl, rfl, id⟩, rfl, rfl⟩
    · split <;> exact ⟨_, _, rfl, ⟨rfl, rfl, rfl, id⟩, rfl, rfl⟩
  · split <;> exact ⟨_, _, rfl, ⟨rfl, rfl, rfl, id⟩, rfl, rfl⟩
  · exact ⟨_, _, rfl, ⟨rfl, rfl, rfl, id⟩, rfl, rfl⟩

/-- A new armed file holds the first request of its update. -/
theorem Sound.armed (sound : Sound identity w) (here : w.target = some t)
    (own : r.nonce = t.nonce) (armer : r.armer = t.serial)
    (first : ∀ updateId, r.updateId = some updateId → Unarmed identity w updateId)
    (follows : Follows t' t) (request : t'.task.request? = none)
    (arms : t'.task.armsUpdate? = none) :
    Sound identity { w with
      dir := w.dir.setArmed t.pid (some (some r))
      target := some t'
      acks := acks } := by
  -- whatever asks for a restart now is the new request, or did so before
  have held : ∀ r', Holds { w with
      dir := w.dir.setArmed t.pid (some (some r))
      target := some t'
      acks := acks } r' → r' = r ∨ w.Holds r' := by
    rintro r' (⟨pid, there⟩ | ⟨_, ⟨⟩, takes⟩)
    · unfold StateDir.setArmed at there
      dsimp only at there
      split at there
      · cases there
        exact .inl rfl
      · exact .inr (.inl ⟨pid, there⟩)
    · rw [request] at takes
      cases takes
  constructor
  case issued => exact sound.issued
  case named =>
    rintro _ ⟨⟩
    exact follows.identity.trans (sound.named t here)
  case running =>
    rintro _ ⟨⟩
    rw [follows.nonce, follows.serial]
    exact sound.running t here
  case written =>
    intro r' held'
    obtain rfl | held' := held r' held'
    · rw [own, armer]
      exact sound.running t here
    · exact sound.written r' held'
  case consumed =>
    intro r' held' updateId asks
    obtain rfl | held' := held r' held'
    · exact (first updateId asks).consumed
    · exact sound.consumed r' held' updateId asks
  case agree =>
    intro r₁ held₁ r₂ held₂ updateId asks₁ asks₂
    -- two requests for one update: the new one is the first for its update, so both are new or both
    -- old
    obtain rfl | before₁ := held r₁ held₁
    · obtain rfl | before₂ := held r₂ held₂
      · rfl
      · exact absurd asks₂ ((first updateId asks₁).unheld r₂ before₂)
    · obtain rfl | before₂ := held r₂ held₂
      · exact absurd asks₁ ((first updateId asks₂).unheld r₁ before₁)
      · exact sound.agree r₁ before₁ r₂ before₂ updateId asks₁ asks₂
  case arming =>
    rintro _ ⟨⟩ updateId arms'
    rw [arms] at arms'
    cases arms'
  case spent =>
    intro x mem updateId asks
    obtain ⟨consumed, only⟩ := sound.spent x mem updateId asks
    refine ⟨consumed, fun r' held' asks' => ?_⟩
    obtain rfl | held' := held r' held'
    -- an update that has been restarted is not armed a second time
    · exact absurd asks ((first updateId asks').unspent x mem)
    · exact only r' held' asks'
  case fenced =>
    intro x mem
    obtain ⟨known, fenced⟩ := sound.fenced x mem
    refine ⟨known, ?_⟩
    rintro _ ⟨⟩ same
    exact follows.fence (fenced t here (follows.nonce.symm.trans same))
  case ready =>
    rintro _ ⟨⟩ p passes
    rw [passed?_of_request? request] at passes
    cases passes
  case gated => exact sound.gated
  case once => exact sound.once

/-- An update is armed only after it has been consumed. -/
theorem Sound.tryArm {updateId : Option String} {origin : Origin} (sound : Sound identity w)
    (here : w.target = some t) (task : t.task = .arming updateId origin) (now : Int)
    (fault : Fault) : Sound identity (w.tryArm t updateId origin now fault) := by
  have failed := sound.armFailed here (.refl w.dir) updateId origin
  unfold Host.tryArm
  split
  · exact failed
  cases fault with
  | refused => exact failed
  | torn =>
    exact sound.armFailed here (StateDir.within_setArmed fun r same => by cases same) updateId
      origin
  | absent =>
    obtain ⟨t', acks, same, follows, request, arms⟩ := exists_armedWith
      { w with dir := w.dir.setArmed t.pid (some (some ⟨t.nonce, now, updateId, t.serial⟩)) } t
      updateId origin
    dsimp only
    rw [same]
    refine sound.armed here rfl rfl (fun asked asks => ?_) follows request arms
    exact sound.arming t here asked (by rw [task]; exact asks)

/-- A request that is no commit is answered, and nothing else. -/
theorem quiet_request {phase : Phase} (early : phase ≠ .commit)
    (taken : w.step (.request phase updateId) = some w') :
    w'.dir = w.dir ∧ w'.target = w.target := by
  obtain ⟨t, here, taken⟩ := Option.bind_eq_some_iff.mp taken
  obtain ⟨_, rfl⟩ := Machine.of_guard taken
  cases phase with
  | commit => exact absurd rfl early
  | legacy => exact ⟨rfl, rfl⟩
  | prepare =>
    unfold fleetArmRestart
    split
    · exact ⟨rfl, rfl⟩
    split
    · exact ⟨rfl, rfl⟩
    split
    · exact ⟨rfl, rfl⟩
    split
    · split <;> exact ⟨rfl, rfl⟩
    · next late => exact absurd rfl late

/-! ## Every step -/

/-- Every step of a handler keeps the fence. -/
theorem Sound.perform (sound : Sound identity w) (here : w.target = some t) {now : Int}
    {fault : Fault} (taken : w.perform t now fault = some w') : Sound identity w' := by
  unfold Host.perform at taken
  split at taken
  · cases taken
  · cases taken
    exact sound.consume here _ _ _
  · next task =>
    cases taken
    exact sound.tryArm here task _ _
  · cases taken
    exact sound.gate here _ _
  · next task =>
    cases taken
    exact sound.rewrite here task _ _
  · next task =>
    cases taken
    exact sound.claim here task _
  · next task =>
    cases taken
    exact sound.prepare here (by rw [task, Task.passed?]) (within_unmark _ _ _) rfl rfl rfl
  · next task =>
    cases taken
    exact sound.mark here task _
  · next task =>
    cases taken
    exact sound.prepare here (by rw [task, Task.passed?]) (StateDir.within_disarm _ _ _) rfl rfl rfl
  · next task =>
    cases taken
    exact sound.kill here task
  · cases taken
    split <;> exact sound.pause here (within_unclaim _ _ _) ⟨rfl, rfl, rfl, id⟩ rfl rfl
  · cases taken
    exact sound.pause here (within_unmark _ _ _) ⟨rfl, rfl, rfl, id⟩ rfl rfl

/-- A request of the fleet begins its handler. -/
theorem Sound.request (sound : Sound identity w) (here : w.target = some t)
    (task : t.task = .rest) (phase : Phase) (updateId : String) :
    Sound identity (w.fleetArmRestart t phase updateId) := by
  have answered : ∀ acks, Sound identity { w with acks := acks } := by
    intro acks
    have same : { w with acks := acks } = { w with dir := w.dir, target := some t, acks := acks } :=
      by rw [← here]
    rw [same]
    exact sound.pause here (.refl w.dir) (.refl t) (by rw [task]; rfl) (by rw [task]; rfl)
  unfold fleetArmRestart
  split
  · exact answered _
  split
  · exact answered _
  split
  · exact answered _
  split
  · split <;> exact answered _
  · exact sound.pause here (.refl w.dir) ⟨rfl, rfl, rfl, id⟩ rfl rfl

/-- Every event that a target at rest handles keeps the fence. -/
theorem Sound.handle (sound : Sound identity w) (here : w.target = some t)
    (task : t.task = .rest) {event : FleetEvent}
    (fixed : ∀ address roomId, event = .renamed address roomId →
      targetIdentity address roomId = identity)
    (taken : w.handle t event = some w') : Sound identity w' := by
  -- most handlers change what the process remembers and go back to rest
  have rest : ∀ t', Follows t' t → Sound identity (w.goTo t' .rest) := fun t' follows =>
    sound.pause here (.refl w.dir) { follows with }
      rfl rfl
  have gating : ∀ t', Follows t' t → Sound identity (w.goTo t' .gating) := fun t' follows =>
    sound.pause here (.refl w.dir) { follows with }
      rfl rfl
  cases event with
  | sessionStarted =>
    cases taken
    split <;> exact sound.pause here (.refl w.dir) ⟨rfl, rfl, rfl, id⟩ rfl rfl
  | sessionEnded =>
    cases taken
    exact rest _ ⟨rfl, rfl, rfl, id⟩
  | request phase updateId =>
    cases taken
    exact sound.request here task phase updateId
  | armSelf updateId =>
    cases taken
    split
    · exact sound.pause here (.refl w.dir) ⟨rfl, rfl, rfl, id⟩ rfl rfl
    · exact sound
  | armManual =>
    cases taken
    split
    · exact sound
    · exact sound.pause here (.refl w.dir) ⟨rfl, rfl, rfl, id⟩ rfl rfl
  | settled =>
    cases taken
    exact gating _ ⟨rfl, rfl, rfl, id⟩
  | turn working =>
    cases taken
    exact rest _ ⟨rfl, rfl, rfl, id⟩
  | idled idle =>
    cases taken
    exact rest _ ⟨rfl, rfl, rfl, id⟩
  | background count =>
    cases taken
    split
    · exact gating _ ⟨rfl, rfl, rfl, id⟩
    · exact rest _ ⟨rfl, rfl, rfl, id⟩
  | microtask =>
    simp only [Host.handle] at taken
    obtain ⟨_, rfl⟩ := Machine.of_guard taken
    split
    · exact rest _ ⟨rfl, rfl, rfl, id⟩
    · exact gating _ ⟨rfl, rfl, rfl, id⟩
  | renamed address roomId =>
    cases taken
    -- the one event that could change the identity
    exact rest _ ⟨rfl, rfl, (fixed address roomId rfl).trans (sound.named t here).symm, id⟩
  | disposed disposed =>
    cases taken
    exact rest _ ⟨rfl, rfl, rfl, id⟩
  | fenced fenced =>
    cases fenced with
    | true =>
      cases taken
      exact rest _ ⟨rfl, rfl, rfl, fun hot => by simp [hot]⟩
    | false =>
      cases taken
      exact rest _ ⟨rfl, rfl, rfl, fun hot => by simp [hot]⟩
  | _ => cases taken

end Host

/-- The identity that the process has from now on. -/
def FleetEvent.identity? : FleetEvent → Option (Option String)
  | .spawned _ _ _ address roomId | .renamed address roomId => some (targetIdentity address roomId)
  | _ => none

/-- The identity of the target does not change. -/
def FixedIdentity (identity : Option String) (_ : Host) (event : FleetEvent) : Prop :=
  ∀ new ∈ event.identity?, new = identity

instance (identity : Option String) (w : Host) (event : FleetEvent) :
    Decidable (FixedIdentity identity w event) :=
  inferInstanceAs (Decidable (∀ new ∈ event.identity?, new = identity))

namespace Host

variable {w w' : Host} {identity : Option String}

/-- A new process holds no request, and its nonce is its own. -/
theorem Sound.spawned (sound : Sound identity w) {t : Target} (fresh : t.nonce ∉ w.nonces)
    (last : t.serial = w.nonces.length) (named : t.identity = identity)
    (rests : t.task = .rest) :
    Sound identity { w with target := some t, nonces := w.nonces ++ [t.nonce] } := by
  have request : t.task.request? = none := by
    rw [rests]
    rfl
  -- a fresh process holds no request of its own
  have held : ∀ r, Holds { w with target := some t, nonces := w.nonces ++ [t.nonce] } r →
      w.Holds r := by
    rintro r (there | ⟨_, ⟨⟩, takes⟩)
    · exact .inl there
    · rw [request] at takes
      cases takes
  have earlier : ∀ {k nonce}, w.nonces[k]? = some nonce →
      (w.nonces ++ [t.nonce])[k]? = some nonce := fun found =>
    (List.getElem?_append_left (List.getElem?_eq_some_iff.mp found).1).trans found
  constructor
  case issued =>
    refine List.nodup_append.mpr ⟨sound.issued, by simp, ?_⟩
    intro nonce mem other own same
    rw [List.mem_singleton.mp own] at same
    exact fresh (same ▸ mem)
  case named =>
    rintro _ ⟨⟩
    exact named
  case running =>
    rintro _ ⟨⟩
    rw [last]
    exact List.getElem?_concat_length ..
  case written => exact fun r held' => earlier (sound.written r (held r held'))
  case consumed => exact fun r held' => sound.consumed r (held r held')
  case agree => exact fun r held' r' held'' => sound.agree r (held r held') r' (held r' held'')
  case arming =>
    rintro _ ⟨⟩ updateId arms
    rw [rests] at arms
    cases arms
  case spent =>
    intro x mem updateId asks
    obtain ⟨consumed, only⟩ := sound.spent x mem updateId asks
    exact ⟨consumed, fun r held' => only r (held r held')⟩
  case fenced =>
    intro x mem
    obtain ⟨known, -⟩ := sound.fenced x mem
    refine ⟨List.mem_append_left _ known, ?_⟩
    rintro _ ⟨⟩ same
    -- an earlier restart belongs to an earlier nonce
    exact absurd (same ▸ known) fresh
  case ready =>
    rintro _ ⟨⟩ p passes
    rw [passed?_of_request? request] at passes
    cases passes
  case gated => exact sound.gated
  case once => exact sound.once

/-- A sweep brings no request. -/
theorem within_sweep (dir : StateDir) (pid : Nat) (armed claimed marker : Bool) :
    (sweep dir pid armed claimed marker).Within dir := by
  have first : (if armed then dir.setArmed pid none else dir).Within dir := by
    split
    · exact StateDir.within_setArmed fun r same => by cases same
    · exact .refl dir
  refine first.trans ?_
  unfold sweep
  dsimp only
  split <;> split <;> exact ⟨fun _ mem => mem, fun _ r there => ⟨r, there, .refl r⟩⟩

/-- The target may die at any time. -/
theorem Sound.died (sound : Sound identity w) : Sound identity { w with target := none } := by
  refine sound.of_noNewRequest_of_unarming
    ⟨rfl, rfl, fun _ mem => mem, ?_, by rintro _ ⟨⟩, by rintro _ ⟨⟩⟩ (by rintro _ ⟨⟩)
  rintro r (there | ⟨_, ⟨⟩, -⟩)
  exact ⟨r, .inl there, .refl r⟩

/-- Every step keeps the fence. -/
theorem Sound.step (sound : Sound identity w) {event : FleetEvent}
    (fixed : FixedIdentity identity w event) (taken : w.step event = some w') :
    Sound identity w' := by
  -- events that the process attends to only at rest
  have attended : ∀ event, (∀ address roomId, event = .renamed address roomId →
        targetIdentity address roomId = identity) →
      (w.target.bind fun t => if t.task = .rest then w.handle t event else none) = some w' →
      Sound identity w' := by
    intro event renamed taken
    obtain ⟨t, here, taken⟩ := Option.bind_eq_some_iff.mp taken
    split at taken
    · next rests => exact sound.handle here rests renamed taken
    · cases taken
  cases event with
  | spawned pid nonce daemon address roomId =>
    simp only [Host.step] at taken
    split at taken
    · next free =>
      simp only [Bool.and_eq_true, Option.isNone_iff_eq_none, decide_eq_true_eq] at free
      cases taken
      exact sound.spawned free.2 rfl (fixed _ rfl) rfl
    · cases taken
  | died =>
    simp only [Host.step] at taken
    obtain ⟨_, rfl⟩ := Machine.of_guard taken
    exact sound.died
  | armScript pid serial now =>
    simp only [Host.step] at taken
    split at taken
    · obtain ⟨nonce, known, rfl⟩ := Option.map_eq_some_iff.mp taken
      exact sound.armScript pid known rfl
    · cases taken
  | toggled enabled =>
    cases taken
    exact sound.setDir ⟨fun _ mem => mem, (StateDir.Within.refl w.dir).armed⟩
  | swept pid armed claimed marker =>
    cases taken
    exact sound.setDir (within_sweep w.dir pid armed claimed marker)
  | secured secure =>
    cases taken
    exact sound.setDir ⟨fun _ mem => mem, (StateDir.Within.refl w.dir).armed⟩
  | advance now fault =>
    obtain ⟨t, here, taken⟩ := Option.bind_eq_some_iff.mp taken
    exact sound.perform here taken
  | renamed address roomId =>
    exact attended _ (fun _ _ same => by cases same; exact fixed _ rfl) taken
  | _ => exact attended _ (fun _ _ same => by cases same) taken

/-- The fence holds before the first process. -/
theorem sound_of_init (initial : fleetTarget.Init w) : Sound identity w := by
  obtain ⟨gone, nonces, -, restarts, unarmed⟩ := initial
  have unheld : ∀ r, ¬w.Holds r := by
    rintro r (⟨pid, there⟩ | ⟨t, here, -⟩)
    · rw [unarmed] at there
      cases there
    · rw [gone] at here
      cases here
  constructor
  case issued => simp [nonces]
  case written => exact fun r held => absurd held (unheld r)
  case consumed => exact fun r held => absurd held (unheld r)
  case agree => exact fun r held => absurd held (unheld r)
  all_goals simp [gone, restarts]

end Host

/-- For each update id at most one restart is triggered, while the agent is idle, nothing runs in
the background, and with an armed file that carries the nonce of the process, which is the one that
it was written for; the gate of that restart has found hot reload enabled. A legacy or prepare
request writes nothing. All of it holds whatever other processes do to the files in the meantime. -/
theorem one_restart {identity : Option String} {w : Host}
    (reached : fleetTarget.ReachableUnder (FixedIdentity identity) w) :
    (∀ updateId, (w.restarts.filter fun x => x.request.updateId = some updateId).length ≤ 1) ∧
      (∀ x ∈ w.restarts, x.idle = true ∧ x.background = 0 ∧ x.enabled = true ∧
        x.request.nonce = x.nonce ∧ x.request.armer = x.serial) ∧
      ∀ phase updateId w', phase ≠ .commit → w.step (.request phase updateId) = some w' →
        w'.dir = w.dir ∧ w'.target = w.target := by
  have sound : Host.Sound identity w :=
    reached.invariant (fun w initial => Host.sound_of_init initial)
      fun w event w' sound fixed taken => sound.step fixed taken
  refine ⟨sound.once, sound.gated, fun phase updateId w' early taken => ?_⟩
  exact Host.quiet_request early taken

/-- A directory with the toggle and nothing else, before the first process. -/
def Host.fresh : Host :=
  ⟨⟨true, true, [], fun _ => none, fun _ => false, fun _ => false⟩, none, [], [], []⟩

/-- The update is committed and restarts the process, although another one disables hot reload after
the gate has looked. It is committed again in the next process, which has the same process id. -/
theorem one_restart_replayed : ∃ w,
    fleetTarget.ReachableUnder (FixedIdentity (some "room")) w ∧
      w.acks.map Ack.state = [.armed, .declined] ∧ w.restarts.length = 1 ∧
      (w.restarts.filter fun x => x.request.updateId = some "u").length ≤ 1 ∧
      ∀ x ∈ w.restarts, x.enabled = true ∧ x.request.nonce = x.nonce := by
  let advance (count : Nat) : List FleetEvent := List.replicate count (.advance 0 .absent)
  let start (nonce : Nat) : List FleetEvent :=
    [.spawned 7 nonce false none (some "room"), .sessionStarted] ++ advance 2 ++
      [.request .commit "u"]
  let schedule := start 1 ++ advance 2 ++ [.microtask] ++ advance 2 ++ [.toggled false] ++
    advance 4 ++ [.died, .toggled true] ++ start 2 ++ advance 1
  have meets : fleetTarget.Meets (FixedIdentity (some "room")) .fresh schedule := by decide
  have ran : ((fleetTarget.exec .fresh schedule).any fun w =>
      decide (w.acks.map Ack.state = [.armed, .declined] ∧ w.restarts.length = 1)) = true := by
    decide
  obtain ⟨w, executed, facts⟩ := (Option.any_eq_true _ _).mp ran
  obtain ⟨acks, restarts⟩ := of_decide_eq_true facts
  have reached : fleetTarget.ReachableUnder (FixedIdentity (some "room")) w :=
    ⟨_, ⟨rfl, rfl, rfl, rfl, fun _ => rfl⟩, Machine.runsTo_of_exec meets executed⟩
  obtain ⟨once, gated, -⟩ := one_restart reached
  refine ⟨w, reached, acks, restarts, once "u", fun x mem => ?_⟩
  exact ⟨(gated x mem).2.2.1, (gated x mem).2.2.2.1⟩

end OutpostPi.Fleet
