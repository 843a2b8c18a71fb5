import OutpostPi.Session.TurnInvariant

/-!
# Owners that attach late

An owner that attaches while a turn is active is recorded, and is sent the history when the
done turn is flushed. `LateAttachRun` is a run in which this is due: the owner attaches, the
turn stays active until `agent_done`, and some event leaves the done state.

A turn that begins in the done state drops what was recorded, and so does a compaction that
takes over the id of the running turn. `late_attach_kept_iff` says that nothing else does.
-/

set_option autoImplicit false

namespace OutpostPi.Session

open OutpostPi.Lib

/-! ## Steps -/

section Steps

variable {snapshot next : TurnSnapshot} {event : TurnEvent} {target : LateAttachTarget}

/-- A recorded consumer stays recorded while the same turn is active. -/
theorem mem_targets_of_active (inv : TurnInvariant snapshot)
    (effect : Effect snapshot event next) (was : isActive snapshot.state = true)
    (is : isActive next.state = true) (uncompacted : event.isCompactionStart = false)
    (owed : target ∈ snapshot.lateAttachTargets) : target ∈ next.lateAttachTargets := by
  cases effect with
  | attaches attached running => exact (mem_withLateAttachTarget inv.distinct).mpr (.inl owed)
  | begins starts allowed running =>
    rcases allowed with compacts | inactive
    · rw [uncompacted] at compacts
      cases compacts
    · rw [was] at inactive
      cases inactive
  | ends cause stopped notDone cleared =>
    rw [stopped] at is
    cases is
  | goesOn on kept =>
    rw [kept.1]
    exact owed

/-- A compaction drops everything that was recorded. -/
theorem targets_of_compactionStart (compacts : event.isCompactionStart = true) :
    (reduceTurn snapshot event).lateAttachTargets = [] := by
  cases event with
  | compactionStart turnId replyTo => rfl
  | _ => cases compacts

theorem startsTurn_of_terminal (terminal : event.isTerminal = true) : event.startsTurn = false := by
  cases event with
  | providerError turnId => rfl
  | deliveryError turnId => rfl
  | cancelled turnId => rfl
  | sessionShutdown => rfl
  | _ => cases terminal

theorem isActive_of_done {state : TurnState} (done : state.tag = .done) : isActive state = false := by
  obtain ⟨turnId, collects, flushReady, rfl⟩ := done_of_tag done
  rfl

/-- What was recorded stays while the machine stays in the done state. -/
theorem targets_of_done (effect : Effect snapshot event next) (was : snapshot.state.tag = .done)
    (is : next.state.tag = .done) : next.lateAttachTargets = snapshot.lateAttachTargets := by
  cases effect with
  | attaches attached running =>
    rw [isActive_of_done was] at running
    cases running
  | begins starts allowed running =>
    exact absurd (running.symm.trans (isActive_of_done is)) (by simp)
  | ends cause stopped notDone cleared => exact absurd is notDone
  | goesOn on kept => exact kept.1

/-- The done state is left by the start of a turn, a terminal cause or the flush. -/
theorem leaves_done (effect : Effect snapshot event next) (was : snapshot.state.tag = .done)
    (left : next.state.tag ≠ .done) :
    event.startsTurn = true ∨ event.isTerminal = true ∨ event = .flushLateAttachSync := by
  cases effect with
  | attaches attached running =>
    rw [isActive_of_done was] at running
    cases running
  | begins starts allowed running => exact .inl starts
  | ends cause stopped notDone cleared =>
    rcases cause with terminal | flush | ⟨ended, notDone⟩
    · exact .inr (.inl terminal)
    · exact .inr (.inr flush)
    · exact absurd was notDone
  | goesOn on kept =>
    obtain ⟨turnId, collects, flushReady, state⟩ := done_of_tag was
    rw [state] at on
    generalize next.state = state' at on left
    cases on with
    | stays => exact absurd rfl left
    | runs was is same => cases was
    | finishes was => cases was
    | ready => exact absurd rfl left

end Steps

/-! ## Runs -/

/-- The snapshot after a sequence of events from session startup. -/
def snapshotAfter (events : List TurnEvent) : TurnSnapshot := reduceTurns initialTurnSnapshot events

theorem snapshotAfter_concat (events : List TurnEvent) (event : TurnEvent) :
    snapshotAfter (events ++ [event]) = reduceTurn (snapshotAfter events) event := by
  simp [snapshotAfter, reduceTurns]

theorem turnInvariant_snapshotAfter (events : List TurnEvent) :
    TurnInvariant (snapshotAfter events) :=
  turnInvariant_reduceTurns turnInvariant_initial events

/-- The turn that is active in a snapshot. -/
def TurnSnapshot.activeTurn (snapshot : TurnSnapshot) : Option String :=
  snapshot.state.active.map ActiveTurn.turnId

theorem isActive_of_activeTurn {snapshot : TurnSnapshot} {turnId : String}
    (active : snapshot.activeTurn = some turnId) : isActive snapshot.state = true := by
  obtain ⟨turn, is, -⟩ := Option.map_eq_some_iff.mp active
  rw [isActive, is]
  rfl

/-- An owner attaches to an active turn, the turn is done, and its done state is left. -/
structure LateAttachRun where
  /-- What happened before. -/
  before : List TurnEvent
  /-- The attachment. -/
  attach : TurnEvent
  /-- What happens while the turn is active. -/
  during : List TurnEvent
  /-- The flag of `agent_done`. -/
  collectLateAttach : Option Bool
  /-- What happens while the turn is done. -/
  waiting : List TurnEvent
  /-- The event that leaves the done state. -/
  leave : TurnEvent
  owner : String
  turnId : String
  attached : attach.attachment = some ⟨.owner, owner⟩
  active : (snapshotAfter before).activeTurn = some turnId
  stays : ∀ n ≤ during.length,
    (snapshotAfter (before ++ [attach] ++ during.take n)).activeTurn = some turnId
  done : ∀ n ≤ waiting.length, (snapshotAfter (before ++ [attach] ++ during ++
    [.agentDone collectLateAttach] ++ waiting.take n)).state.tag = .done
  left : (snapshotAfter (before ++ [attach] ++ during ++ [.agentDone collectLateAttach] ++
    waiting ++ [leave])).state.tag ≠ .done

namespace LateAttachRun

variable (run : LateAttachRun)

/-- The snapshot after the attachment and `n` more events of the active turn. -/
def activeAt (n : Nat) : TurnSnapshot :=
  snapshotAfter (run.before ++ [run.attach] ++ run.during.take n)

/-- The snapshot after `n` events of the done turn. -/
def doneAt (n : Nat) : TurnSnapshot :=
  snapshotAfter (run.before ++ [run.attach] ++ run.during ++ [.agentDone run.collectLateAttach] ++
    run.waiting.take n)

/-- The owner. -/
def target : LateAttachTarget := ⟨.owner, run.owner⟩

/-- No event drops the owner before the done state is left, and it is left by the flush, to
which the owner is then a target, or by a terminal cause. -/
def NotLost (localeCompare : String → String → Ordering) : Prop :=
  (∀ n ≤ run.during.length, run.target ∈ (run.activeAt n).lateAttachTargets) ∧
  (∀ n ≤ run.waiting.length,
    run.target ∈ (projectTurn localeCompare (run.doneAt n)).lateAttachSyncTargets) ∧
  (run.leave = .flushLateAttachSync ∧ run.target ∈ (projectTurn localeCompare
    (run.doneAt run.waiting.length)).lateAttachSyncTargets ∨ run.leave.isTerminal = true)

/-- No turn begins under the owner: no compaction takes over the running turn, and the done
state is not left by the start of a turn. -/
def Undisturbed : Prop :=
  (∀ event ∈ run.during, event.isCompactionStart = false) ∧ run.leave.startsTurn = false

variable {run : LateAttachRun}

theorem activeAt_succ {n : Nat} (bound : n < run.during.length) :
    run.activeAt (n + 1) = reduceTurn (run.activeAt n) (run.during.get ⟨n, bound⟩) := by
  rw [activeAt, List.take_succ_eq_append_getElem bound, ← List.append_assoc, snapshotAfter_concat]
  rfl

theorem doneAt_succ {n : Nat} (bound : n < run.waiting.length) :
    run.doneAt (n + 1) = reduceTurn (run.doneAt n) (run.waiting.get ⟨n, bound⟩) := by
  rw [doneAt, List.take_succ_eq_append_getElem bound, ← List.append_assoc, snapshotAfter_concat]
  rfl

theorem attached_activeAt : run.target ∈ (run.activeAt 0).lateAttachTargets := by
  have running := isActive_of_activeTurn run.active
  rw [activeAt, List.take_zero, List.append_nil, snapshotAfter_concat]
  have inv := turnInvariant_snapshotAfter run.before
  have recorded : run.target ∈
      (withLateAttachTarget (snapshotAfter run.before) run.target).lateAttachTargets :=
    (mem_withLateAttachTarget inv.distinct).mpr (.inr rfl)
  cases event : run.attach <;> have attached := run.attached <;> rw [event] at attached <;>
    cases attached <;> rw [reduceTurn, if_pos running] <;> exact recorded

/-- With no compaction the owner is recorded while the turn is active. -/
theorem mem_activeAt (uncompacted : ∀ event ∈ run.during, event.isCompactionStart = false) (n : Nat)
    (bound : n ≤ run.during.length) : run.target ∈ (run.activeAt n).lateAttachTargets := by
  induction n with
  | zero => exact attached_activeAt
  | succ n ih =>
    have before : n ≤ run.during.length := Nat.le_of_succ_le bound
    have is := isActive_of_activeTurn (run.stays (n + 1) bound)
    have effect := reduceTurn_effect (run.activeAt n) (run.during.get ⟨n, bound⟩)
    rw [← activeAt_succ bound] at effect
    exact mem_targets_of_active (turnInvariant_snapshotAfter _) effect
      (isActive_of_activeTurn (run.stays n before)) is
      (uncompacted _ (List.get_mem _ _)) (ih before)

/-- A compaction of the active turn drops the owner. -/
theorem uncompacted_of_mem
    (kept : ∀ n ≤ run.during.length, run.target ∈ (run.activeAt n).lateAttachTargets) :
    ∀ event ∈ run.during, event.isCompactionStart = false := by
  intro event mem
  by_contra compacts
  obtain ⟨⟨n, bound⟩, rfl⟩ := List.mem_iff_get.mp mem
  have owed := kept (n + 1) bound
  rw [activeAt_succ bound, targets_of_compactionStart (by simpa using compacts)] at owed
  cases owed

theorem targets_doneAt_zero : (run.doneAt 0).lateAttachTargets =
    (run.activeAt run.during.length).lateAttachTargets := by
  have running := isActive_of_activeTurn (run.stays _ le_rfl)
  rw [doneAt, List.take_zero, List.append_nil, snapshotAfter_concat, activeAt, List.take_length]
  rw [List.take_length] at running
  obtain ⟨turn, is⟩ := Option.isSome_iff_exists.mp running
  rw [reduceTurn, transitionActive]
  simp only [is]

/-- What was recorded when the turn was done stays until the done state is left. -/
theorem targets_doneAt (n : Nat) (bound : n ≤ run.waiting.length) :
    (run.doneAt n).lateAttachTargets = (run.activeAt run.during.length).lateAttachTargets := by
  induction n with
  | zero => exact targets_doneAt_zero
  | succ n ih =>
    have before : n ≤ run.waiting.length := Nat.le_of_succ_le bound
    have effect := reduceTurn_effect (run.doneAt n) (run.waiting.get ⟨n, bound⟩)
    rw [← doneAt_succ bound] at effect
    rw [targets_of_done effect (run.done n before) (run.done (n + 1) bound)]
    exact ih before

theorem lateAttachSyncTargets_of_done {localeCompare : String → String → Ordering}
    {snapshot : TurnSnapshot} {target : LateAttachTarget} (done : snapshot.state.tag = .done) :
    target ∈ (projectTurn localeCompare snapshot).lateAttachSyncTargets ↔
      target ∈ snapshot.lateAttachTargets := by
  obtain ⟨turnId, collects, flushReady, state⟩ := done_of_tag done
  simp [projectTurn, state, sortLateAttachTargets]

theorem leave_cases (run : LateAttachRun) : run.leave.startsTurn = true ∨
    run.leave.isTerminal = true ∨ run.leave = .flushLateAttachSync := by
  have was := run.done _ le_rfl
  have left := run.left
  rw [List.take_length] at was
  rw [snapshotAfter_concat] at left
  exact leaves_done (reduceTurn_effect _ _) was left

end LateAttachRun

/-- A late owner is not lost exactly when no turn begins under it. -/
theorem late_attach_kept_iff (localeCompare : String → String → Ordering) (run : LateAttachRun) :
    run.NotLost localeCompare ↔ run.Undisturbed := by
  constructor
  · rintro ⟨kept, -, ⟨flush, -⟩ | terminal⟩
    · exact ⟨LateAttachRun.uncompacted_of_mem kept, by rw [flush]; rfl⟩
    · exact ⟨LateAttachRun.uncompacted_of_mem kept, startsTurn_of_terminal terminal⟩
  · rintro ⟨uncompacted, unstarted⟩
    have kept := LateAttachRun.mem_activeAt uncompacted
    have waits : ∀ n ≤ run.waiting.length,
        run.target ∈ (projectTurn localeCompare (run.doneAt n)).lateAttachSyncTargets := by
      intro n bound
      apply (LateAttachRun.lateAttachSyncTargets_of_done (run.done n bound)).mpr
      rw [← LateAttachRun.doneAt, LateAttachRun.targets_doneAt n bound]
      exact kept _ le_rfl
    refine ⟨kept, waits, ?_⟩
    rcases run.leave_cases with starts | terminal | flush
    · rw [unstarted] at starts
      cases starts
    · exact .inr terminal
    · exact .inl ⟨flush, waits _ le_rfl⟩

/-- An owner attaches to a turn that goes on and ends, and the turn is flushed. -/
def flushedRun : LateAttachRun where
  before := [.userMessageAccepted "first" none none]
  attach := .peerAttached ⟨.owner, "late"⟩
  during := [.agentChunk none, .toolExecutionStart "call", .toolExecutionEnd (some "call")]
  collectLateAttach := some true
  waiting := [.turnEnd]
  leave := .flushLateAttachSync
  owner := "late"
  turnId := "first"
  attached := rfl
  active := rfl
  stays := by decide
  done := by decide
  left := by decide

/-- The owner is not lost. -/
theorem late_attach_kept_iff_flushed : flushedRun.NotLost compare :=
  (late_attach_kept_iff compare flushedRun).mpr ⟨by decide, rfl⟩

/-- An owner attaches to the turn of a message, and another message arrives when that turn is
done and not yet flushed. -/
def supersededRun : LateAttachRun where
  before := [.userMessageAccepted "first" none none]
  attach := .peerAttached ⟨.owner, "late"⟩
  during := []
  collectLateAttach := none
  waiting := [.turnEnd]
  leave := .userMessageAccepted "second" none none
  owner := "late"
  turnId := "first"
  attached := rfl
  active := rfl
  stays := by decide
  done := by decide
  left := by decide

/-- The next message begins a turn and the late owner is lost. -/
theorem exists_late_attach_lost : ¬ supersededRun.NotLost compare := by
  rintro ⟨-, -, ⟨flush, -⟩ | terminal⟩
  · cases flush
  · cases terminal

/-! ## The flush -/

/-- Send the history of the turn that is done to every late owner with a channel, and flush.
A history is determined by the turn that it replies to. -/
def maybeSendLateAttachSessionSync {χ : Type} (localeCompare : String → String → Ordering)
    (channels : List (String × χ)) (snapshot : TurnSnapshot) : List (χ × String) × TurnSnapshot :=
  let projection := projectTurn localeCompare snapshot
  match projection.canFlushLateAttachSync, projection.awaitingSyncTurnId with
  | true, some turnId =>
    let activeTargets := OrderedMap.ofList channels
    let sent := projection.lateAttachSyncTargets.filterMap fun target =>
      match target.kind with
      | .owner => (activeTargets.get? target.id).map fun channel => (channel, turnId)
      | .meshBridge => none
    (sent, reduceTurn snapshot .flushLateAttachSync)
  | _, _ => ([], snapshot)

/-- A recorded owner that has a channel is sent the history once the turn has ended. -/
theorem sent_maybeSendLateAttachSessionSync {χ : Type}
    {localeCompare : String → String → Ordering} {channels : List (String × χ)}
    {snapshot : TurnSnapshot} {turnId owner : String} {collects : Bool} {channel : χ}
    (ready : snapshot.state = .done turnId collects true)
    (owed : ⟨.owner, owner⟩ ∈ snapshot.lateAttachTargets)
    (connected : (OrderedMap.ofList channels).get? owner = some channel) :
    (channel, turnId) ∈ (maybeSendLateAttachSessionSync localeCompare channels snapshot).1 := by
  have target : ⟨.owner, owner⟩ ∈ (projectTurn localeCompare snapshot).lateAttachSyncTargets :=
    (LateAttachRun.lateAttachSyncTargets_of_done (by rw [ready]; rfl)).mpr owed
  have waits : (projectTurn localeCompare snapshot).awaitingSyncTurnId = some turnId := by
    simp [projectTurn, ready]
  have flushes : (projectTurn localeCompare snapshot).canFlushLateAttachSync = true := by
    simp [projectTurn, ready]
  rw [maybeSendLateAttachSessionSync]
  simp only [waits, flushes]
  apply List.mem_filterMap.mpr
  exact ⟨_, target, by simp [connected]⟩

end OutpostPi.Session
