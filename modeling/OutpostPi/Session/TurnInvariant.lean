import OutpostPi.Session.TurnState

/-!
# The invariant of the turn state machine

`Effect` sorts what an event does to a snapshot: it attaches a consumer to the running turn,
begins a turn, ends one, or lets the turn go on. `reduceTurn_effect` is the inversion lemma
through which all properties of the reducer are proved. `TurnInvariant` is what the reducer
keeps, and `turn_machine_invariant` is what follows for every sequence of events.
-/

set_option autoImplicit false

namespace OutpostPi.Session

open OutpostPi.Lib

/-! ## What an event does -/

namespace TurnEvent

/-- The consumer that the event attaches. -/
def attachment : TurnEvent → Option LateAttachTarget
  | .peerAttached target => some target
  | .peerIdAttached peerId => some ⟨.owner, peerId⟩
  | _ => none

/-- The event announces a compaction, which is a turn of its own. -/
def isCompactionStart : TurnEvent → Bool
  | .compactionStart _ _ => true
  | _ => false

/-- The event may begin a turn. -/
def startsTurn : TurnEvent → Bool
  | .userMessageAccepted _ _ _ => true
  | .localInput _ _ _ => true
  | .turnStart _ => true
  | .compactionStart _ _ => true
  | _ => false

/-- The event is a terminal cause. -/
def isTerminal : TurnEvent → Bool
  | .providerError _ => true
  | .deliveryError _ => true
  | .cancelled _ => true
  | .sessionShutdown => true
  | _ => false

end TurnEvent

/-- A turn goes on: its state stays, or it moves within the turn. -/
inductive Continues : TurnState → TurnState → Prop
  | stays (state : TurnState) : Continues state state
  | runs {state state' : TurnState} {turn turn' : ActiveTurn} (was : state.active = some turn)
      (is : state'.active = some turn') (same : turn'.turnId = turn.turnId) :
      Continues state state'
  | finishes {state : TurnState} {turn : ActiveTurn} {collects : Bool}
      (was : state.active = some turn) : Continues state (.done turn.turnId collects false)
  | ready {turnId : String} {collects flushReady : Bool} :
      Continues (.done turnId collects flushReady) (.done turnId collects true)

/-- What an event does to a snapshot. -/
inductive Effect (snapshot : TurnSnapshot) (event : TurnEvent) : TurnSnapshot → Prop
  | attaches {target : LateAttachTarget} (attached : event.attachment = some target)
      (running : isActive snapshot.state = true) :
      Effect snapshot event (withLateAttachTarget snapshot target)
  | begins {state : TurnState} (starts : event.startsTurn = true)
      (allowed : event.isCompactionStart = true ∨ isActive snapshot.state = false)
      (running : isActive state = true) :
      Effect snapshot event (snapshot.restart state)
  | ends {next : TurnSnapshot} (cause : event.isTerminal = true ∨ event = .flushLateAttachSync ∨
        event = .turnEnd ∧ snapshot.state.tag ≠ .done)
      (stopped : isActive next.state = false) (notDone : next.state.tag ≠ .done)
      (cleared : next.lateAttachTargets = [] ∧ next.peersAttachedDuringTurn = .empty) :
      Effect snapshot event next
  | goesOn {next : TurnSnapshot} (on : Continues snapshot.state next.state)
      (kept : next.lateAttachTargets = snapshot.lateAttachTargets ∧
        next.peersAttachedDuringTurn = snapshot.peersAttachedDuringTurn) :
      Effect snapshot event next

variable {state : TurnState}

theorem done_of_tag (done : state.tag = .done) :
    ∃ turnId collects flushReady, state = .done turnId collects flushReady := by
  cases state with
  | done turnId collects flushReady => exact ⟨turnId, collects, flushReady, rfl⟩
  | idle => cases done
  | working _ _ _ => cases done
  | awaitingTool _ _ _ => cases done
  | streaming _ _ => cases done
  | error _ _ => cases done

variable {snapshot : TurnSnapshot} {event : TurnEvent}

theorem effect_unchanged : Effect snapshot event snapshot :=
  .goesOn (.stays _) ⟨rfl, rfl⟩

theorem effect_withQueued {queued : Option QueuedMessage} :
    Effect snapshot event (withQueued snapshot queued) :=
  .goesOn (.stays _) ⟨rfl, rfl⟩

theorem effect_seedTurn {turnId replyTo : String} {source : IngressSource}
    (starts : event.startsTurn = true) :
    Effect snapshot event (seedTurn snapshot turnId replyTo source) := by
  rw [seedTurn]
  split
  · exact effect_unchanged
  · next idle => exact .begins starts (.inr (by simpa using idle)) rfl

theorem effect_terminalError {reason : TurnErrorReason} {turnId : Option String}
    (terminal : event.isTerminal = true) :
    Effect snapshot event (terminalError snapshot reason turnId) := by
  apply Effect.ends (.inl terminal) rfl
  · intro done
    cases done
  · exact ⟨rfl, rfl⟩

variable {target : LateAttachTarget}

theorem effect_attach (attached : event.attachment = some target) :
    Effect snapshot event
      (if isActive snapshot.state then withLateAttachTarget snapshot target else snapshot) := by
  split
  · next running => exact .attaches attached running
  · exact effect_unchanged

theorem effect_transitionActive {next : ActiveTurn → TurnState}
    (on : ∀ turn, snapshot.state.active = some turn → Continues snapshot.state (next turn)) :
    Effect snapshot event (transitionActive snapshot next) := by
  rw [transitionActive]
  split
  · exact effect_unchanged
  · next turn active => exact .goesOn (on turn active) ⟨rfl, rfl⟩

/-- Going idle ends the turn, unless it is done and only its end is reported. -/
theorem effect_idleWithQueue (cause : event = .flushLateAttachSync ∨
    event = .turnEnd ∧ snapshot.state.tag ≠ .done) :
    Effect snapshot event (idleWithQueue snapshot) := by
  apply Effect.ends (.inr cause) rfl
  · intro done
    cases done
  · exact ⟨rfl, rfl⟩

/-- Every event does one of the four. -/
theorem reduceTurn_effect (snapshot : TurnSnapshot) (event : TurnEvent) :
    Effect snapshot event (reduceTurn snapshot event) := by
  -- one case for each event, in the order of the reducer
  cases event with
  | queuedMessageSet id text => exact effect_withQueued
  | queuedMessageClear => exact effect_withQueued
  | peerAttached target => exact effect_attach rfl
  | peerIdAttached peerId => exact effect_attach rfl
  | userMessageAccepted turnId replyTo source => exact effect_seedTurn rfl
  | localInput turnId replyTo source => exact effect_seedTurn rfl
  | turnStart fallbackTurnId =>
    rw [reduceTurn]
    split
    · exact effect_unchanged
    · next idle => exact .begins rfl (.inr (by simpa using idle)) rfl
  | agentChunk replyTo => exact effect_transitionActive fun turn active => .runs active rfl rfl
  | toolExecutionStart toolCallId =>
    exact effect_transitionActive fun turn active => .runs active rfl rfl
  | toolExecutionEnd toolCallId =>
    rw [reduceTurn]
    split
    · next turnId replyTo running waiting =>
      split
      · exact .goesOn (.runs (by rw [waiting]; rfl) rfl rfl) ⟨rfl, rfl⟩
      · exact effect_unchanged
    · exact effect_unchanged
  | agentDone collects => exact effect_transitionActive fun turn active => .finishes active
  | turnEnd =>
    rw [reduceTurn]
    split
    · next turnId collects flushReady done =>
      exact .goesOn (by rw [done]; exact .ready) ⟨rfl, rfl⟩
    · exact effect_unchanged
    · next notDone notIdle =>
      apply effect_idleWithQueue
      refine .inr ⟨rfl, fun done => ?_⟩
      obtain ⟨turnId, collects, flushReady, state⟩ := done_of_tag done
      exact notDone _ _ _ state
  | flushLateAttachSync =>
    rw [reduceTurn]
    split
    · exact effect_idleWithQueue (.inl rfl)
    · exact effect_unchanged
  | providerError turnId => exact effect_terminalError rfl
  | deliveryError turnId => exact effect_terminalError rfl
  | cancelled turnId => exact effect_terminalError rfl
  | sessionShutdown => exact .ends (.inl rfl) rfl (fun done => by cases done) ⟨rfl, rfl⟩
  | compactionStart turnId replyTo => exact .begins rfl (.inl rfl) rfl
  | compactionDone => exact effect_transitionActive fun turn active => .finishes active

/-! ## Late attachments -/

theorem lateAttachKey_injective {a b : LateAttachTarget} (same : lateAttachKey a = lateAttachKey b) :
    a = b := by
  obtain ⟨kind, id⟩ := a
  obtain ⟨kind', id'⟩ := b
  -- The first letter of a key tells the kind.
  cases kind <;> cases kind' <;>
    simp [lateAttachKey, String.ext_iff] at same ⊢ <;> exact same

/-- Attaching a consumer appends it, unless it is there. -/
theorem lateAttachTargets_withLateAttachTarget (distinct : snapshot.lateAttachTargets.Nodup) :
    (withLateAttachTarget snapshot target).lateAttachTargets =
      if target ∈ snapshot.lateAttachTargets then snapshot.lateAttachTargets
      else snapshot.lateAttachTargets ++ [target] := by
  have keys : ((snapshot.lateAttachTargets.map fun item =>
      (lateAttachKey item, item)).map Prod.fst).Nodup := by
    rw [List.map_map]
    exact distinct.map fun _ _ => lateAttachKey_injective
  rw [withLateAttachTarget]
  dsimp only
  rw [OrderedMap.values_set, OrderedMap.entries_ofList keys]
  split
  · next present =>
    rw [OrderedMap.place_of_mem keys (List.mem_map_of_mem present), List.map_map]
    exact List.map_id _
  · next absent =>
    have fresh : lateAttachKey target ∉ (snapshot.lateAttachTargets.map fun item =>
        (lateAttachKey item, item)).map Prod.fst := by
      rw [List.map_map, List.mem_map]
      rintro ⟨item, mem, same⟩
      exact absent (lateAttachKey_injective same ▸ mem)
    rw [OrderedMap.place_of_not_mem fresh, List.map_append, List.map_map]
    exact congrArg (· ++ [target]) (List.map_id _)

theorem mem_withLateAttachTarget {other : LateAttachTarget}
    (distinct : snapshot.lateAttachTargets.Nodup) :
    other ∈ (withLateAttachTarget snapshot target).lateAttachTargets ↔
      other ∈ snapshot.lateAttachTargets ∨ other = target := by
  rw [lateAttachTargets_withLateAttachTarget distinct]
  split
  · next present =>
    constructor
    · exact Or.inl
    · rintro (mem | rfl)
      · exact mem
      · exact present
  · simp

/-! ## The invariant -/

/-- What holds of every reachable snapshot. -/
structure TurnInvariant (snapshot : TurnSnapshot) : Prop where
  /-- No consumer is recorded twice. -/
  distinct : snapshot.lateAttachTargets.Nodup
  /-- The attached peers are the owners among the recorded consumers. -/
  owners : ∀ id, id ∈ snapshot.peersAttachedDuringTurn.items ↔
    ⟨.owner, id⟩ ∈ snapshot.lateAttachTargets
  /-- With no turn active or done nothing is recorded. -/
  settled : isActive snapshot.state = false → snapshot.state.tag ≠ .done →
    snapshot.lateAttachTargets = [] ∧ snapshot.peersAttachedDuringTurn = .empty

theorem turnInvariant_initial : TurnInvariant initialTurnSnapshot :=
  ⟨List.nodup_nil, fun _ => by simp [initialTurnSnapshot], fun _ _ => ⟨rfl, rfl⟩⟩

theorem turnInvariant_cleared (cleared : snapshot.lateAttachTargets = [] ∧
    snapshot.peersAttachedDuringTurn = .empty) : TurnInvariant snapshot where
  distinct := by simp [cleared.1]
  owners id := by simp [cleared.1, cleared.2]
  settled _ _ := cleared

theorem inactive_of_tag (ended : state.tag = .idle ∨ state.tag = .error) :
    isActive state = false ∧ state.tag ≠ .done := by
  cases state <;> simp [TurnState.tag, isActive, TurnState.active] at ended ⊢

/-- A turn that goes on is active or done, or it was over before. -/
theorem Continues.frozen {state' : TurnState} (on : Continues state state')
    (inactive : isActive state' = false) (notDone : state'.tag ≠ .done) : state' = state := by
  cases on with
  | stays => rfl
  | runs was is same => simp [isActive, is] at inactive
  | finishes was => exact absurd rfl notDone
  | ready => exact absurd rfl notDone

theorem turnInvariant_attach (inv : TurnInvariant snapshot)
    (running : isActive snapshot.state = true) :
    TurnInvariant (withLateAttachTarget snapshot target) where
  distinct := by
    rw [lateAttachTargets_withLateAttachTarget inv.distinct]
    split
    · exact inv.distinct
    · next absent =>
      exact inv.distinct.append (List.nodup_singleton _) (by simpa using absent)
  owners id := by
    rw [mem_withLateAttachTarget inv.distinct, ← inv.owners id]
    obtain ⟨kind, attached⟩ := target
    cases kind with
    | owner => simp [withLateAttachTarget]
    | meshBridge => simp [withLateAttachTarget]
  settled inactive := by
    have same : (withLateAttachTarget snapshot target).state = snapshot.state := rfl
    rw [same, running] at inactive
    cases inactive

/-- One event keeps the invariant. -/
theorem turnInvariant_of_effect {next : TurnSnapshot} (inv : TurnInvariant snapshot)
    (effect : Effect snapshot event next) : TurnInvariant next := by
  cases effect with
  | attaches attached running => exact turnInvariant_attach inv running
  | begins starts allowed running => exact turnInvariant_cleared ⟨rfl, rfl⟩
  | ends cause stopped notDone cleared => exact turnInvariant_cleared cleared
  | goesOn on kept =>
    constructor
    · rw [kept.1]
      exact inv.distinct
    · intro id
      rw [kept.1, kept.2]
      exact inv.owners id
    · intro inactive notDone
      rw [kept.1, kept.2]
      have same := on.frozen inactive notDone
      rw [same] at inactive notDone
      exact inv.settled inactive notDone

/-- Every sequence of events keeps the invariant. -/
theorem turnInvariant_reduceTurns {snapshot : TurnSnapshot} (inv : TurnInvariant snapshot)
    (events : List TurnEvent) : TurnInvariant (reduceTurns snapshot events) := by
  induction events generalizing snapshot with
  | nil => exact inv
  | cons event events ih => exact ih (turnInvariant_of_effect inv (reduceTurn_effect _ event))

/-! ## The active turn -/

/-- The turn of an active state that goes on is the same. -/
theorem Continues.sameTurn {state' : TurnState} {turn : ActiveTurn} (on : Continues state state')
    (was : state.active = some turn) (running : isActive state' = true) :
    state'.active.map ActiveTurn.turnId = some turn.turnId := by
  cases on with
  | stays => simp [was]
  | runs was' is same =>
    obtain rfl : _ = turn := Option.some.inj (was'.symm.trans was)
    simp [is, same]
  | finishes was' => cases running
  | ready => cases running

/-- A turn that is active before and after an event is the same turn, unless a compaction
takes over. -/
theorem sameTurn_of_effect {next : TurnSnapshot} {turn : ActiveTurn}
    (effect : Effect snapshot event next) (was : snapshot.state.active = some turn)
    (running : isActive next.state = true) (uncompacted : event.isCompactionStart = false) :
    next.state.active.map ActiveTurn.turnId = some turn.turnId := by
  cases effect with
  | attaches attached active => simp [withLateAttachTarget, was]
  | begins starts allowed active =>
    rcases allowed with compacts | inactive
    · rw [uncompacted] at compacts
      cases compacts
    · rw [isActive, was] at inactive
      cases inactive
  | ends cause stopped notDone cleared =>
    rw [stopped] at running
    cases running
  | goesOn on kept => exact on.sameTurn was running

variable (localeCompare : String → String → Ordering)

/-- While the machine stays active without a compaction the active turn is the same. -/
theorem activeTurnId_reduceTurns {snapshot : TurnSnapshot} {events : List TurnEvent}
    (uncompacted : ∀ event ∈ events, event.isCompactionStart = false)
    (active : ∀ n, (projectTurn localeCompare
      (reduceTurns snapshot (events.take n))).working = true) :
    (projectTurn localeCompare (reduceTurns snapshot events)).activeTurnId =
      (projectTurn localeCompare snapshot).activeTurnId := by
  induction events generalizing snapshot with
  | nil => rfl
  | cons event events ih =>
    have running : isActive snapshot.state = true := active 0
    obtain ⟨turn, was⟩ := Option.isSome_iff_exists.mp running
    have still : isActive (reduceTurn snapshot event).state = true := active 1
    have step := sameTurn_of_effect (reduceTurn_effect snapshot event) was still
      (uncompacted event List.mem_cons_self)
    have rest := ih (fun later mem => uncompacted later (List.mem_cons_of_mem _ mem))
      (fun n => active (n + 1))
    calc (projectTurn localeCompare (reduceTurns (reduceTurn snapshot event) events)).activeTurnId
        = (projectTurn localeCompare (reduceTurn snapshot event)).activeTurnId := rest
      _ = some turn.turnId := step
      _ = (projectTurn localeCompare snapshot).activeTurnId := by simp [projectTurn, was]

/-- The turn machine after any sequence of events: it works exactly when a turn, its reply
target and its cancel target are there; no consumer is recorded twice, the attached peers are
the recorded owners, and none are recorded in idle and error; the queue drains only when no
turn is active; and a turn that stays active is the same turn until a compaction begins. -/
theorem turn_machine_invariant (events : List TurnEvent) :
    let snapshot := reduceTurns initialTurnSnapshot events
    let projection := projectTurn localeCompare snapshot
    (projection.working = true ↔ projection.activeTurnId ≠ none ∧ projection.replyTo ≠ none ∧
      projection.cancelTargetId ≠ none) ∧
    (snapshot.lateAttachTargets.map fun target => (target.kind, target.id)).Nodup ∧
    (∀ id, id ∈ snapshot.peersAttachedDuringTurn.items ↔
      ⟨.owner, id⟩ ∈ snapshot.lateAttachTargets) ∧
    (projection.phase = .idle ∨ projection.phase = .error →
      snapshot.lateAttachTargets = [] ∧ snapshot.peersAttachedDuringTurn = .empty) ∧
    (projection.canDrainQueuedMessage = true →
      projection.working = false ∧ projection.activeTurnId = none) ∧
    (∀ later : List TurnEvent, (∀ event ∈ later, event.isCompactionStart = false) →
      (∀ n, (projectTurn localeCompare (reduceTurns snapshot (later.take n))).working = true) →
      (projectTurn localeCompare (reduceTurns snapshot later)).activeTurnId =
        projection.activeTurnId) := by
  intro snapshot projection
  have inv : TurnInvariant snapshot := turnInvariant_reduceTurns turnInvariant_initial events
  refine ⟨?_, ?_, inv.owners, ?_, ?_, ?_⟩
  · cases active : snapshot.state.active with
    | none => simp [projection, projectTurn, isActive, active]
    | some turn => simp [projection, projectTurn, isActive, active]
  · apply inv.distinct.map
    rintro ⟨kind, id⟩ ⟨kind', id'⟩ same
    simpa using same
  · intro ended
    have phase : snapshot.state.tag = .idle ∨ snapshot.state.tag = .error := ended
    exact inv.settled (inactive_of_tag phase).1 (inactive_of_tag phase).2
  · intro drains
    cases state : snapshot.state <;>
      simp [projection, projectTurn, state, TurnState.tag, isActive, TurnState.active] at drains ⊢
  · intro later uncompacted active
    exact activeTurnId_reduceTurns localeCompare uncompacted active

end OutpostPi.Session
