import OutpostPi.Lib.Tasks
import OutpostPi.Relay.Rooms
import OutpostPi.Relay.Subscriptions

/-!
# Lifecycle calls of the relay as interleaved operations

A connection's lifecycle runs through several tables under separate locks: the connection
table, the room snapshots, and the two subscription indexes. Each call of `PeerRegistry` and of
the control handlers is written here as the list of its atomic operations, one for each lock
acquisition and one for each message put into a subscriber's mailboxes. Any number of calls is
interleaved by `relaySystem.machine`.

`Op` is the type of operations and `Services.run` their effect; `entry` gives the operations of a
request. Operations that depend on the result of an earlier one are put in front of the call
when that result is known.
-/

set_option autoImplicit false

namespace OutpostPi.Relay

open OutpostPi.Lib

/-! ## Events -/

/-- A change of a peer's reachability, as seen by one insertion or removal. -/
inductive PresenceTransition
  | becameOnline (peerId : PeerId)
  | stayedOnline (peerId : PeerId)
  | becameOffline (peerId : PeerId) (sinceTs : Int)
  | stayedOnlineAfterDisconnect (peerId : PeerId)
  deriving DecidableEq

namespace PresenceState

def onConnectionInserted (insert : ConnectionInsert) : PresenceTransition :=
  if insert.wasOfflineBefore then .becameOnline insert.peerId else .stayedOnline insert.peerId

def onConnectionRemoved (remove : ConnectionRemove) (nowMs : Int) : Option PresenceTransition :=
  if !remove.removedConnection then none
  else if remove.peerOfflined then some (.becameOffline remove.peerId nowMs)
  else some (.stayedOnlineAfterDisconnect remove.peerId)

end PresenceState

/-- The mutable metadata broadcast after a patch. The first three fields and `background` are
left out when absent; the last three are sent as null. -/
structure RoomMetaProjection where
  model : Option String
  thinking : Option String
  sessionId : Option String
  working : Bool
  background : Option Bool
  branch : Option String
  ctxPercent : Option UInt64
  ctxMax : Option UInt64
  deriving DecidableEq

/-- The projection of a snapshot that subscribers receive. -/
def RoomMeta.projection (snapshot : RoomMeta) : RoomMetaProjection where
  model := snapshot.model
  thinking := snapshot.thinking
  sessionId := snapshot.sessionId
  working := snapshot.working
  background := snapshot.background
  branch := snapshot.branch
  ctxPercent := snapshot.ctxPercent
  ctxMax := snapshot.ctxMax

/-- The lifecycle frames that the relay pushes into mailboxes. -/
inductive ServerFrame
  | peerOnline (peer : PeerId)
  | peerOffline (peer : PeerId) (sinceTs : Int)
  | roomAnnounced (peer : PeerId) (room : RoomMeta)
  | roomEnded (peer : PeerId) (roomId : RoomId) (sinceTs : Int)
  | roomMetaUpdated (peer : PeerId) (roomId : RoomId) (snapshot : RoomMetaProjection)
  deriving DecidableEq

/-! ## Operations -/

/-- The state shared by every connection. -/
structure Services where
  connections : ConnectionRegistry ServerFrame
  roomState : RoomStateStore
  presence : PresenceManager
  rooms : RoomManager

/-- The relay at start-up. -/
def Services.new : Services := ⟨.new, .new, .new, .new⟩

/-- One atomic operation of a call. -/
inductive Op
  /-- `ConnectionRegistry::insert`. -/
  | connectionsInsert (peerId : PeerId) (room : RoomMeta) (deviceId : DeviceId)
      (tx : Sender ServerFrame)
  /-- `RoomStateStore::on_connection_inserted`. -/
  | onConnectionInserted (peerId : PeerId) (room : RoomMeta) (insert : ConnectionInsert)
  /-- `ConnectionRegistry::remove`; `teardown` tells whether `handle_peer` is the caller. -/
  | connectionsRemove (peerId : PeerId) (roomId : RoomId) (connId : ConnId) (nowMs : Int)
      (teardown : Bool)
  /-- `RoomStateStore::on_connection_removed`. -/
  | onConnectionRemoved (peerId : PeerId) (roomId : RoomId) (remove : ConnectionRemove)
      (nowMs : Int)
  /-- `RoomManager::subscribers_of`, for a frame about the peer's rooms. -/
  | roomSubscribers (peerId : PeerId) (frame : ServerFrame)
  /-- `PresenceManager::subscribers_of`, for a frame about the peer's presence. -/
  | presenceSubscribers (peerId : PeerId) (frame : ServerFrame)
  /-- The next `send_to_all_rooms_of` in `publish_to_subscribers`. -/
  | publishToSubscribers (subscribers : List PeerId) (frame : ServerFrame)
  | recordOffline (peerId : PeerId) (ts : Int)
  | presenceUnsubscribeAll (subscriber : PeerId)
  | roomsUnsubscribeAll (subscriber : PeerId)
  /-- `RoomStateStore::apply_patch`. -/
  | applyPatch (peerId : PeerId) (roomId : RoomId) (patch : RoomMetaPatch)
  | presenceSubscribe (subscriber : PeerId) (peers : List PeerId)
  | presenceUnsubscribe (subscriber : PeerId) (peers : List PeerId)
  | roomsSubscribe (subscriber : PeerId) (peers : List PeerId)
  | roomsUnsubscribe (subscriber : PeerId) (peers : List PeerId)
  /-- The `is_online` test of the presence backfill. -/
  | backfillCheck (subscriber : PeerId) (peer : PeerId)
  /-- `publish_peer_online_backfill`. -/
  | backfillSend (subscriber : PeerId) (peer : PeerId)
  /-- The socket owner takes one message out of its mailbox. -/
  | recv (key : RoomKey) (connId : ConnId)
  /-- The socket owner drops the receiving half of its mailbox. -/
  | close (key : RoomKey) (connId : ConnId)
  deriving DecidableEq

/-- The operations of `publish_presence_transition`. The two transitions that stay online only
count a metric. -/
def publishPresenceTransition : PresenceTransition → List Op
  | .becameOnline peerId => [.presenceSubscribers peerId (.peerOnline peerId)]
  | .stayedOnline _ => []
  | .becameOffline peerId sinceTs =>
    [.presenceSubscribers peerId (.peerOffline peerId sinceTs), .recordOffline peerId sinceTs,
      .presenceUnsubscribeAll peerId]
  | .stayedOnlineAfterDisconnect _ => []

/-- What `register` does after its insertion. -/
def afterInsert (peerId : PeerId) (room : RoomMeta) (insert : ConnectionInsert) : List Op :=
  .onConnectionInserted peerId room insert ::
    publishPresenceTransition (PresenceState.onConnectionInserted insert)

/-- What `unregister`, and the teardown that called it, do after the removal. -/
def afterRemove (peerId : PeerId) (roomId : RoomId) (remove : ConnectionRemove) (nowMs : Int)
    (teardown : Bool) : List Op :=
  .onConnectionRemoved peerId roomId remove nowMs ::
    (((PresenceState.onConnectionRemoved remove nowMs).map publishPresenceTransition).getD [] ++
      if teardown && remove.peerOfflined then [.roomsUnsubscribeAll peerId] else [])

/-- The sends that follow a subscriber lookup. -/
def publish (subscribers : List PeerId) (frame : ServerFrame) : List Op :=
  if subscribers.isEmpty then [] else [.publishToSubscribers subscribers frame]

/-- The effect of an operation and what it puts in front of its call. The choice names the
subscriber served next by `publishToSubscribers`, since the iteration order of a hash set is
unspecified; other operations do not read it. -/
def Services.run (services : Services) : Op → PeerId → Option (Services × List Op)
  | .connectionsInsert peerId room deviceId tx, _ =>
    let inserted := services.connections.insert peerId room.roomId deviceId tx
    some ({ services with connections := inserted.1 }, afterInsert peerId room inserted.2)
  | .onConnectionInserted peerId room insert, _ =>
    let stored := services.roomState.onConnectionInserted peerId room insert
    some ({ services with roomState := stored.1 },
      match stored.2 with
      | some announced => [.roomSubscribers peerId (.roomAnnounced peerId announced)]
      | none => [])
  | .connectionsRemove peerId roomId connId nowMs teardown, _ =>
    let removed := services.connections.remove peerId roomId connId
    some ({ services with connections := removed.1 },
      afterRemove peerId roomId removed.2 nowMs teardown)
  | .onConnectionRemoved peerId roomId remove nowMs, _ =>
    let stored := services.roomState.onConnectionRemoved peerId roomId remove nowMs
    some ({ services with roomState := stored.1 },
      match stored.2 with
      | some ended => [.roomSubscribers peerId (.roomEnded peerId ended.roomId ended.sinceTs)]
      | none => [])
  | .roomSubscribers peerId frame, _ =>
    some (services, publish (services.rooms.subscriptions.subscribersOf peerId) frame)
  | .presenceSubscribers peerId frame, _ =>
    some (services, publish (services.presence.subscriptions.subscribersOf peerId) frame)
  | .publishToSubscribers subscribers frame, subscriber =>
    if subscriber ∈ subscribers then
      some ({ services with connections := (services.connections.sendToPeer subscriber frame).1 },
        publish (subscribers.erase subscriber) frame)
    else none
  | .recordOffline peerId ts, _ =>
    some ({ services with presence := services.presence.recordOffline peerId ts }, [])
  | .presenceUnsubscribeAll subscriber, _ =>
    some ({ services with presence :=
      { services.presence with
        subscriptions := services.presence.subscriptions.removeAll subscriber } }, [])
  | .roomsUnsubscribeAll subscriber, _ =>
    some ({ services with rooms := ⟨services.rooms.subscriptions.removeAll subscriber⟩ }, [])
  | .applyPatch peerId roomId patch, _ =>
    match services.roomState.applyPatch peerId roomId patch with
    | none => some (services, [])
    | some (roomState, room) =>
      some ({ services with roomState := roomState },
        if patch.isEmpty then []
        else [.roomSubscribers peerId (.roomMetaUpdated peerId roomId room.projection)])
  | .presenceSubscribe subscriber peers, _ =>
    some ({ services with presence :=
      { services.presence with
        subscriptions := services.presence.subscriptions.replace subscriber peers } }, [])
  | .presenceUnsubscribe subscriber peers, _ =>
    some ({ services with presence :=
      { services.presence with
        subscriptions := services.presence.subscriptions.remove subscriber peers } }, [])
  | .roomsSubscribe subscriber peers, _ =>
    some ({ services with rooms := ⟨services.rooms.subscriptions.replace subscriber peers⟩ }, [])
  | .roomsUnsubscribe subscriber peers, _ =>
    some ({ services with rooms := ⟨services.rooms.subscriptions.remove subscriber peers⟩ }, [])
  | .backfillCheck subscriber peer, _ =>
    some (services, if services.connections.isOnline peer then [.backfillSend subscriber peer] else [])
  | .backfillSend subscriber peer, _ =>
    some ({ services with
      connections := (services.connections.sendToPeer subscriber (.peerOnline peer)).1 }, [])
  | .recv key connId, _ =>
    some ({ services with connections := services.connections.recv key connId }, [])
  | .close key connId, _ =>
    some ({ services with connections := services.connections.close key connId }, [])

/-! ## What the operations leave alone -/

/-- The operations that change which keys are live. -/
def Op.MovesConnections : Op → Prop
  | .connectionsInsert .. => True
  | .connectionsRemove .. => True
  | _ => False

/-- The operations that change which rooms have a snapshot. -/
def Op.MovesRooms : Op → Prop
  | .onConnectionInserted .. => True
  | .onConnectionRemoved .. => True
  | _ => False

section Frame

variable {services services' : Services} {op : Op} {choice : PeerId} {new : List Op}

/-- Sends and mailbox steps rewrite connections in place, so they keep every key live. -/
theorem live_run (still : ¬ op.MovesConnections)
    (ran : services.run op choice = some (services', new)) (key : RoomKey) :
    services'.connections.Live key ↔ services.connections.Live key := by
  cases op with
  | connectionsInsert => exact absurd trivial still
  | connectionsRemove => exact absurd trivial still
  | publishToSubscribers subscribers frame =>
    simp only [Services.run] at ran
    split at ran
    · obtain ⟨rfl, -⟩ := by simpa using ran
      exact ConnectionRegistry.live_mapEntries
    · simp at ran
  | applyPatch peerId roomId patch =>
    simp only [Services.run] at ran
    split at ran
    · obtain ⟨rfl, -⟩ := by simpa using ran
      rfl
    · obtain ⟨rfl, -⟩ := by simpa using ran
      rfl
  | backfillSend =>
    obtain ⟨rfl, -⟩ := by simpa [Services.run] using ran
    exact ConnectionRegistry.live_mapEntries
  | recv =>
    obtain ⟨rfl, -⟩ := by simpa [Services.run] using ran
    exact ConnectionRegistry.live_mapEntries
  | close =>
    obtain ⟨rfl, -⟩ := by simpa [Services.run] using ran
    exact ConnectionRegistry.live_mapEntries
  | _ =>
    obtain ⟨rfl, -⟩ := by simpa [Services.run] using ran
    rfl

/-- A patch rewrites a snapshot in place; nothing else touches the room snapshots. -/
theorem holds_run (still : ¬ op.MovesRooms)
    (ran : services.run op choice = some (services', new)) (key : RoomKey) :
    services'.roomState.Holds key ↔ services.roomState.Holds key := by
  cases op with
  | onConnectionInserted => exact absurd trivial still
  | onConnectionRemoved => exact absurd trivial still
  | publishToSubscribers subscribers frame =>
    simp only [Services.run] at ran
    split at ran
    · obtain ⟨rfl, -⟩ := by simpa using ran
      rfl
    · simp at ran
  | applyPatch peerId roomId patch =>
    simp only [Services.run] at ran
    split at ran
    · obtain ⟨rfl, -⟩ := by simpa using ran
      rfl
    · next roomState room patched =>
      obtain ⟨rfl, -⟩ := by simpa using ran
      exact RoomStateStore.holds_applyPatch patched
  | _ =>
    obtain ⟨rfl, -⟩ := by simpa [Services.run] using ran
    rfl

end Frame

/-! ## The system -/

/-- A call of the registry or of a control handler, or a step of a socket owner. -/
inductive Request
  | register (peerId : PeerId) (room : RoomMeta) (deviceId : DeviceId) (tx : Sender ServerFrame)
  | unregister (peerId : PeerId) (roomId : RoomId) (connId : ConnId) (nowMs : Int)
  /-- The end of `handle_peer`. -/
  | teardown (peerId : PeerId) (roomId : RoomId) (connId : ConnId) (nowMs : Int)
  | roomMetaUpdate (peerId : PeerId) (roomId : RoomId) (patch : RoomMetaPatch)
  | subscribePresence (subscriber : PeerId) (peers : List PeerId)
  | unsubscribePresence (subscriber : PeerId) (peers : List PeerId)
  | subscribeRooms (subscriber : PeerId) (peers : List PeerId)
  | unsubscribeRooms (subscriber : PeerId) (peers : List PeerId)
  | recv (key : RoomKey) (connId : ConnId)
  | close (key : RoomKey) (connId : ConnId)
  deriving DecidableEq

/-- The operations with which a request begins. -/
def entry : Request → List Op
  | .register peerId room deviceId tx => [.connectionsInsert peerId room deviceId tx]
  | .unregister peerId roomId connId nowMs =>
    [.connectionsRemove peerId roomId connId nowMs false]
  | .teardown peerId roomId connId nowMs => [.connectionsRemove peerId roomId connId nowMs true]
  | .roomMetaUpdate peerId roomId patch => [.applyPatch peerId roomId patch]
  | .subscribePresence subscriber peers =>
    .presenceSubscribe subscriber peers :: peers.map (.backfillCheck subscriber)
  | .unsubscribePresence subscriber peers => [.presenceUnsubscribe subscriber peers]
  | .subscribeRooms subscriber peers => [.roomsSubscribe subscriber peers]
  | .unsubscribeRooms subscriber peers => [.roomsUnsubscribe subscriber peers]
  | .recv key connId => [.recv key connId]
  | .close key connId => [.close key connId]

/-- The relay with any number of calls in progress. -/
def relaySystem : TaskSystem Services Op Request PeerId where
  Init services := services = .new
  entry := entry
  run := Services.run

/-- A state of the relay together with its calls. -/
abbrev RelayState := TaskState Services Op

/-- A step of the relay. -/
abbrev RelayAction := TaskAction Request PeerId

/-- The relay at start-up, with no call in progress. -/
def initial : RelayState := ⟨.new, fun _ => []⟩

/-- An advancing call of the relay runs the operation at its head. -/
theorem advance_cases {s s' : RelayState} {i : Nat} {choice : PeerId}
    (taken : relaySystem.machine.step s (.advance i choice) = some s') :
    ∃ op rest services new, s.tasks i = op :: rest ∧
      s.shared.run op choice = some (services, new) ∧
      s' = ⟨services, Function.update s.tasks i (new ++ rest)⟩ :=
  TaskSystem.step_advance taken

/-- The relay starts with no call in progress. -/
theorem init_initial : relaySystem.machine.Init initial :=
  ⟨rfl, fun _ => rfl⟩

/-! ## Schedules of single calls -/

/-- A room known only by its identifier. -/
def plainRoom (roomId : RoomId) : RoomMeta where
  roomId := roomId
  name := none
  cwd := none
  sessionId := none
  model := none
  thinking := none
  working := false
  background := none
  branch := none
  ctxPercent := none
  ctxMax := none
  startedAt := 0

/-- The capacity of a connection's mailbox. -/
def outboundQueueCapacity : Nat := 16

/-- One registration of a device, from its call to its return when nobody is subscribed. -/
def registration (slot : Nat) (peerId : PeerId) (roomId : RoomId) (deviceId : DeviceId) :
    List RelayAction :=
  [.call slot (.register peerId (plainRoom roomId) deviceId (.channel outboundQueueCapacity)),
    .advance slot "", .advance slot "", .advance slot "", .advance slot ""]

/-- One registration that is reported to a single subscriber. -/
def reportedRegistration (slot : Nat) (peerId : PeerId) (roomId : RoomId) (deviceId : DeviceId)
    (subscriber : PeerId) : List RelayAction :=
  [.call slot (.register peerId (plainRoom roomId) deviceId (.channel outboundQueueCapacity)),
    .advance slot "", .advance slot "", .advance slot "", .advance slot subscriber,
    .advance slot "", .advance slot subscriber]

end OutpostPi.Relay
