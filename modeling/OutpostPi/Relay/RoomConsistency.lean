import OutpostPi.Relay.Lifecycle

/-!
# Agreement of the room snapshots with the live connections

A registration enters the connection table first and the room store second; an unregistration
leaves them in the same order. Between the two operations the tables may differ, and the call
that will bring them together again is still in progress. `Tracked` states this debt: a live
room without a snapshot has a registration about to store one, and a snapshot of a room that is
not live has a removal about to drop it.

Calls of different connections may overlap so that the second operation of one of them runs
after the room has changed hands. `InOrder` excludes exactly the operations that would leave
such a difference with nobody to repair it. Under it every quiescent state agrees
(`holds_iff_live_of_inOrder`); without it agreement fails
(`exists_idle_live_without_snapshot`).
-/

set_option autoImplicit false

namespace OutpostPi.Relay.RoomConsistency

open OutpostPi.Lib

/-- The operation that stores the snapshot of a registered room. -/
def StoresSnapshot (key : RoomKey) : Op → Prop
  | .onConnectionInserted peerId room _ => (peerId, room.roomId) = key
  | _ => False

/-- The operation that drops the snapshot of an emptied room. -/
def DropsSnapshot (key : RoomKey) : Op → Prop
  | .onConnectionRemoved peerId roomId remove _ =>
    remove.roomEmptied = true ∧ (peerId, roomId) = key
  | _ => False

/-- Every difference between the two tables is owed by a call in progress. -/
structure Tracked (s : RelayState) : Prop where
  missing : ∀ key, s.shared.connections.Live key → ¬ s.shared.roomState.Holds key →
    s.Pending (StoresSnapshot key)
  stale : ∀ key, s.shared.roomState.Holds key → ¬ s.shared.connections.Live key →
    s.Pending (DropsSnapshot key)

/-- A snapshot is stored only while its room is live or about to be dropped, and dropped only
while its room is not live or about to be stored. -/
def InOrder (s : RelayState) : RelayAction → Prop
  | .call _ _ => True
  | .advance i _ =>
    match s.tasks i with
    | .onConnectionInserted peerId room _ :: _ =>
      s.shared.connections.Live (peerId, room.roomId) ∨
        s.Pending (DropsSnapshot (peerId, room.roomId))
    | .onConnectionRemoved peerId roomId remove _ :: _ =>
      remove.roomEmptied = true →
        ¬ s.shared.connections.Live (peerId, roomId) ∨
          s.Pending (StoresSnapshot (peerId, roomId))
    | _ => True

theorem tracked_initial {s : RelayState} (start : relaySystem.machine.Init s) : Tracked s := by
  obtain ⟨fresh, -⟩ := start
  have empty : s.shared = Services.new := fresh
  constructor
  · intro key live
    rw [empty] at live
    exact absurd live ConnectionRegistry.not_live_new
  · intro key held
    rw [empty] at held
    exact absurd held RoomStateStore.not_holds_new

section Step

variable {s : RelayState} {i : Nat} {op : Op} {rest new : List Op} {services : Services}

/-- A debt that the executed operation does not pay is still owed. -/
private theorem owed {P : Op → Prop} (busy : s.tasks i = op :: rest) (unpaid : ¬ P op)
    (pending : s.Pending P) :
    TaskState.Pending ⟨services, Function.update s.tasks i (new ++ rest)⟩ P :=
  (TaskSystem.pending_advance busy pending).resolve_left unpaid

/-- Operations that touch neither table keep every debt. -/
private theorem tracked_still (busy : s.tasks i = op :: rest) (tracked : Tracked s)
    (live : ∀ key, services.connections.Live key ↔ s.shared.connections.Live key)
    (holds : ∀ key, services.roomState.Holds key ↔ s.shared.roomState.Holds key)
    (stores : ∀ key, ¬ StoresSnapshot key op) (drops : ∀ key, ¬ DropsSnapshot key op) :
    Tracked ⟨services, Function.update s.tasks i (new ++ rest)⟩ := by
  constructor
  · intro key nowLive notHeld
    rw [live] at nowLive
    rw [holds] at notHeld
    exact owed busy (stores key) (tracked.missing key nowLive notHeld)
  · intro key held notLive
    rw [holds] at held
    rw [live] at notLive
    exact owed busy (drops key) (tracked.stale key held notLive)

variable {peerId choice : PeerId}

private theorem tracked_insert {room : RoomMeta} {deviceId : DeviceId} {tx : Sender ServerFrame}
    (busy : s.tasks i = .connectionsInsert peerId room deviceId tx :: rest)
    (ran : s.shared.run (.connectionsInsert peerId room deviceId tx) choice =
      some (services, new)) (tracked : Tracked s) :
    Tracked ⟨services, Function.update s.tasks i (new ++ rest)⟩ := by
  obtain ⟨rfl, rfl⟩ := by simpa [Services.run] using ran
  constructor
  · intro key live notHeld
    rcases ConnectionRegistry.live_insert.mp live with rfl | wasLive
    · -- the registration itself goes on to store the snapshot
      exact TaskSystem.pending_new List.mem_cons_self rfl
    · exact owed busy (by simp [StoresSnapshot]) (tracked.missing key wasLive notHeld)
  · intro key held notLive
    have wasNotLive : ¬ s.shared.connections.Live key :=
      fun wasLive => notLive (ConnectionRegistry.live_insert.mpr (Or.inr wasLive))
    exact owed busy (by simp [DropsSnapshot]) (tracked.stale key held wasNotLive)

private theorem tracked_remove {roomId : RoomId} {connId : ConnId} {nowMs : Int} {teardown : Bool}
    (busy : s.tasks i = .connectionsRemove peerId roomId connId nowMs teardown :: rest)
    (ran : s.shared.run (.connectionsRemove peerId roomId connId nowMs teardown) choice =
      some (services, new)) (tracked : Tracked s) :
    Tracked ⟨services, Function.update s.tasks i (new ++ rest)⟩ := by
  obtain ⟨rfl, rfl⟩ := by simpa [Services.run] using ran
  rcases s.shared.connections.remove_cases peerId roomId connId with
    ⟨emptied, -, -, live, -⟩ | ⟨-, -, live⟩
  · constructor
    · intro key nowLive notHeld
      exact owed busy (by simp [StoresSnapshot])
        (tracked.missing key ((live key).mp nowLive).2 notHeld)
    · intro key held notLive
      by_cases here : key = (peerId, roomId)
      · -- the removal that emptied the room goes on to drop the snapshot
        subst here
        exact TaskSystem.pending_new List.mem_cons_self ⟨emptied, rfl⟩
      · have wasNotLive : ¬ s.shared.connections.Live key :=
          fun wasLive => notLive ((live key).mpr ⟨here, wasLive⟩)
        exact owed busy (by simp [DropsSnapshot]) (tracked.stale key held wasNotLive)
  · exact tracked_still busy tracked live (fun _ => Iff.rfl) (by simp [StoresSnapshot])
      (by simp [DropsSnapshot])

private theorem tracked_stored {room : RoomMeta} {insert : ConnectionInsert}
    (busy : s.tasks i = .onConnectionInserted peerId room insert :: rest)
    (ran : s.shared.run (.onConnectionInserted peerId room insert) choice = some (services, new))
    (inOrder : s.shared.connections.Live (peerId, room.roomId) ∨
      s.Pending (DropsSnapshot (peerId, room.roomId))) (tracked : Tracked s) :
    Tracked ⟨services, Function.update s.tasks i (new ++ rest)⟩ := by
  obtain ⟨rfl, -⟩ := by simpa [Services.run] using ran
  constructor
  · intro key live notHeld
    have other : ¬ StoresSnapshot key (.onConnectionInserted peerId room insert) := by
      intro here
      have same : key = (peerId, room.roomId) := here.symm
      exact notHeld ((RoomStateStore.holds_onConnectionInserted room insert).mpr (Or.inl same))
    have wasNotHeld : ¬ s.shared.roomState.Holds key :=
      fun held => notHeld ((RoomStateStore.holds_onConnectionInserted room insert).mpr (Or.inr held))
    exact owed busy other (tracked.missing key live wasNotHeld)
  · intro key held notLive
    rcases (RoomStateStore.holds_onConnectionInserted room insert).mp held with rfl | wasHeld
    · rcases inOrder with live | pending
      · exact absurd live notLive
      · exact owed busy (by simp [DropsSnapshot]) pending
    · exact owed busy (by simp [DropsSnapshot]) (tracked.stale key wasHeld notLive)

private theorem tracked_dropped {roomId : RoomId} {remove : ConnectionRemove} {nowMs : Int}
    (busy : s.tasks i = .onConnectionRemoved peerId roomId remove nowMs :: rest)
    (ran : s.shared.run (.onConnectionRemoved peerId roomId remove nowMs) choice =
      some (services, new))
    (inOrder : remove.roomEmptied = true → ¬ s.shared.connections.Live (peerId, roomId) ∨
      s.Pending (StoresSnapshot (peerId, roomId))) (tracked : Tracked s) :
    Tracked ⟨services, Function.update s.tasks i (new ++ rest)⟩ := by
  obtain ⟨rfl, -⟩ := by simpa [Services.run] using ran
  constructor
  · intro key live notHeld
    by_cases wasHeld : s.shared.roomState.Holds key
    · have dropped : remove.roomEmptied = true ∧ key = (peerId, roomId) := by
        by_contra kept
        exact notHeld (RoomStateStore.holds_onConnectionRemoved.mpr ⟨wasHeld, kept⟩)
      obtain ⟨emptied, rfl⟩ := dropped
      rcases inOrder emptied with notLive | pending
      · exact absurd live notLive
      · exact owed busy (by simp [StoresSnapshot]) pending
    · exact owed busy (by simp [StoresSnapshot]) (tracked.missing key live wasHeld)
  · intro key held notLive
    obtain ⟨wasHeld, kept⟩ := RoomStateStore.holds_onConnectionRemoved.mp held
    refine owed busy ?_ (tracked.stale key wasHeld notLive)
    rintro ⟨emptied, here⟩
    exact kept ⟨emptied, here.symm⟩

end Step

/-- One step in order keeps every difference owed. -/
theorem tracked_step {s s' : RelayState} {a : RelayAction} (tracked : Tracked s)
    (inOrder : InOrder s a) (taken : relaySystem.machine.step s a = some s') : Tracked s' := by
  cases a with
  | call i request =>
    obtain ⟨free, rfl⟩ := TaskSystem.step_call taken
    constructor
    · intro key live notHeld
      exact TaskSystem.pending_call free (tracked.missing key live notHeld)
    · intro key held notLive
      exact TaskSystem.pending_call free (tracked.stale key held notLive)
  | advance i choice =>
    obtain ⟨op, rest, services, new, busy, ran, rfl⟩ := advance_cases taken
    simp only [InOrder, busy] at inOrder
    cases op with
    | connectionsInsert => exact tracked_insert busy ran tracked
    | connectionsRemove => exact tracked_remove busy ran tracked
    | onConnectionInserted => exact tracked_stored busy ran inOrder tracked
    | onConnectionRemoved => exact tracked_dropped busy ran inOrder tracked
    | _ =>
      exact tracked_still busy tracked (live_run (by simp [Op.MovesConnections]) ran)
        (holds_run (by simp [Op.MovesRooms]) ran) (by simp [StoresSnapshot])
        (by simp [DropsSnapshot])

theorem tracked_of_reachable {s : RelayState}
    (reached : relaySystem.machine.ReachableUnder InOrder s) : Tracked s :=
  reached.invariant (fun _ start => tracked_initial start)
    (fun _ _ _ tracked inOrder taken => tracked_step tracked inOrder taken)

/-- In a run whose steps are in order, a state with no call in progress has a snapshot for
exactly the live rooms. -/
theorem holds_iff_live_of_inOrder {s : RelayState}
    (reached : relaySystem.machine.ReachableUnder InOrder s) (idle : s.Idle) (key : RoomKey) :
    s.shared.roomState.Holds key ↔ s.shared.connections.Live key := by
  have tracked := tracked_of_reachable reached
  constructor
  · intro held
    by_contra notLive
    exact TaskState.not_pending_of_idle idle (tracked.stale key held notLive)
  · intro live
    by_contra notHeld
    exact TaskState.not_pending_of_idle idle (tracked.missing key live notHeld)

/-! ## Runs -/

/-- The only device of a room leaves while another one registers in it. The removal drops the
snapshot before the registration, which is in the connection table already, stores its own. -/
def promptRemoval : List RelayAction :=
  registration 0 "pi" "main" "laptop" ++
    [.call 0 (.teardown "pi" "main" 0 1000), .advance 0 "",
      .call 1 (.register "pi" (plainRoom "main") "phone" (.channel outboundQueueCapacity)),
      .advance 1 "", .advance 0 "", .advance 0 "", .advance 1 "", .advance 0 "", .advance 0 "",
      .advance 1 "", .advance 0 "", .advance 1 "", .advance 0 ""]

theorem inOrder_promptRemoval : relaySystem.machine.Meets InOrder initial promptRemoval := by
  refine ⟨trivial, trivial, Or.inl (by decide), trivial, trivial, trivial, trivial, trivial,
    trivial, ?dropped, trivial, Or.inl (by decide), trivial, trivial, trivial, trivial, trivial,
    trivial, trivial⟩
  -- the room is live again, and its registration is about to store the snapshot
  exact fun _ => Or.inr ⟨1, _, List.mem_cons_self, rfl⟩

/-- When both calls have returned, the room is live and has its snapshot. -/
theorem holds_iff_live_of_inOrder_handedOver :
    ∃ s, relaySystem.machine.exec initial promptRemoval = some s ∧
      s.shared.connections.Live ("pi", "main") ∧
      (s.shared.roomState.Holds ("pi", "main") ↔ s.shared.connections.Live ("pi", "main")) := by
  have passed : (relaySystem.machine.exec initial promptRemoval).any (fun s =>
      decide (s.isFreeBelow 2 = true ∧ s.shared.connections.Live ("pi", "main"))) = true := by
    decide
  obtain ⟨s, executed, checked⟩ := (Option.any_eq_true _ _).mp passed
  obtain ⟨free, live⟩ := of_decide_eq_true checked
  have idle : s.Idle := TaskSystem.idle_of_exec 2 (by decide) init_initial.2 executed free
  exact ⟨s, executed, live, holds_iff_live_of_inOrder
    ⟨initial, init_initial, Machine.runsTo_of_exec inOrder_promptRemoval executed⟩ idle
      ("pi", "main")⟩

/-- The last connection of a room leaves while another device registers in it: the new
registration runs to its end between the two table updates of the removal. -/
def overlappingRemoval : List RelayAction :=
  registration 0 "pi" "main" "laptop" ++
    [.call 0 (.teardown "pi" "main" 0 1000), .advance 0 ""] ++
    registration 1 "pi" "main" "phone" ++
    [.advance 0 "", .advance 0 "", .advance 0 "", .advance 0 "", .advance 0 "", .advance 0 ""]

/-- A live room can be left without a snapshot when no call is in progress. -/
theorem exists_idle_live_without_snapshot :
    ∃ s, relaySystem.machine.exec initial overlappingRemoval = some s ∧ s.Idle ∧
      s.shared.connections.Live ("pi", "main") ∧
      ¬ s.shared.roomState.Holds ("pi", "main") := by
  have passed : (relaySystem.machine.exec initial overlappingRemoval).any
      (fun s => decide (s.isFreeBelow 2 = true ∧
        s.shared.connections.Live ("pi", "main") ∧
        ¬ s.shared.roomState.Holds ("pi", "main"))) = true := by
    decide
  obtain ⟨s, executed, checked⟩ := (Option.any_eq_true _ _).mp passed
  obtain ⟨free, live, notHeld⟩ := of_decide_eq_true checked
  have idle : s.Idle := TaskSystem.idle_of_exec 2 (by decide) init_initial.2 executed free
  exact ⟨s, executed, idle, live, notHeld⟩

end OutpostPi.Relay.RoomConsistency
