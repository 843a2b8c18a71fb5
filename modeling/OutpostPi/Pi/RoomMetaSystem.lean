import OutpostPi.Lib.Machine
import OutpostPi.Pi.RoomMetadata

/-!
# The room metadata as a system of the Pi, its connections and the relay

The Pi changes its room metadata while its relay connection goes down and comes up again. Every
connection attempt sends a hello with the metadata as it was when the attempt began, and every
patch published while a connection is bound follows on that connection. At the relay each
connection has a task of its own, which registers the room, applies the frames in order and
removes the room at the end; the tasks of different connections interleave.

`Settled` says that the Pi is connected and that the relay has dealt with everything sent on
that connection, and `Agrees` that the relay's snapshot and the copy of a subscriber then equal
the Pi's metadata. `InOrder` is the condition on steps under which a settled state agrees.
-/

set_option autoImplicit false

namespace OutpostPi.Pi.RoomMetaAgreement

open OutpostPi.Lib OutpostPi.Relay

/-! ## States -/

/-- Where the relay's task of a connection stands. -/
inductive Phase
  /-- The hello has not been registered. -/
  | waiting
  /-- Between the insertion into the connection table and the storing of the snapshot. -/
  | inserted (room : RoomMeta) (insert : ConnectionInsert)
  | serving (connId : ConnId)
  /-- Between the removal from the connection table and the dropping of the snapshot. -/
  | removed (remove : ConnectionRemove)
  | gone
  deriving DecidableEq

/-- One connection of the Pi: the metadata in its hello, the updates sent and not yet read by
the relay, and what the relay's task still has to send to subscribers. -/
structure Link where
  hello : RoomMetadata
  frames : List RoomMetaPatch
  phase : Phase
  outbox : List ServerFrame
  deriving DecidableEq

/-- The task has stored the snapshot of its registration. -/
def Link.stored (link : Link) : Bool :=
  match link.phase with
  | .waiting => false
  | .inserted _ _ => false
  | _ => true

/-- The task reads the frames of its connection. -/
def Link.serves (link : Link) : Bool :=
  match link.phase with
  | .serving _ => true
  | _ => false

/-- The task has emptied the room and not yet dropped its snapshot. -/
def Link.empties (link : Link) : Bool :=
  match link.phase with
  | .removed remove => remove.roomEmptied
  | _ => false

/-- What stays the same in a run: the room, the device and the mailbox of its connections. -/
structure Site where
  peerId : PeerId
  roomId : RoomId
  deviceId : DeviceId
  tx : Sender ServerFrame

/-- The Pi, its connections in the order in which they were opened, the relay's tables for the
room, and the copy that one subscriber keeps of the metadata. -/
structure State where
  myRoomMeta : RoomMetadata
  roomMeta : RoomMetadata
  telemetry : SessionTelemetry
  relay : Option Nat
  attempt : Option Nat
  links : List Link
  connections : ConnectionRegistry ServerFrame
  roomState : RoomStateStore
  copy : RoomMetaProjection

namespace State

/-- The Pi has just been started; the relay does not know the room. -/
def start (room : RoomMetadata) (telemetry : SessionTelemetry) : State where
  myRoomMeta := room
  roomMeta := room
  telemetry := telemetry
  relay := none
  attempt := none
  links := []
  connections := .new
  roomState := .new
  copy := .blank

def setLink (s : State) (i : Nat) (link : Link) : State :=
  { s with links := s.links.set i link }

/-- `sendControl` on the bound connection. Without one the frame is lost. -/
def sendControl (s : State) (patch : RoomMetaPatch) : State :=
  match s.relay with
  | none => s
  | some i =>
    match s.links[i]? with
    | none => s
    | some link => s.setLink i { link with frames := link.frames ++ [patch] }

/-- `_publishRoomMetaPatch`, with the transport's `sendRoomMeta`. -/
def publish (s : State) (patch : RoomMetaPatch) : State :=
  { s with
    myRoomMeta := s.myRoomMeta.assign patch
    roomMeta := s.roomMeta.assign (sent patch) }.sendControl (sent patch)

def publishAll (s : State) (patches : List RoomMetaPatch) : State :=
  patches.foldl publish s

/-- The relay's snapshot of the room. -/
def snapshot (site : Site) (s : State) : Option RoomMeta :=
  s.roomState.rooms.lookup (site.peerId, site.roomId)

/-- No connection opened after the given one has stored its snapshot. -/
def NewestStored (s : State) (i : Nat) : Prop :=
  ∀ link ∈ s.links.drop (i + 1), link.stored = false

instance (s : State) (i : Nat) : Decidable (s.NewestStored i) :=
  inferInstanceAs (Decidable (∀ link ∈ s.links.drop (i + 1), link.stored = false))

/-- The Pi is connected, and the relay has read and published everything of that connection. -/
def Settled (s : State) : Prop :=
  ∃ link ∈ s.relay.bind fun i => s.links[i]?,
    link.serves = true ∧ link.frames = [] ∧ link.outbox = []

instance (s : State) : Decidable s.Settled :=
  inferInstanceAs (Decidable (∃ link ∈ s.relay.bind fun i => s.links[i]?, _))

/-- The relay and the subscriber hold the Pi's metadata. -/
def Agrees (site : Site) (s : State) : Prop :=
  (∃ room ∈ s.snapshot site, s.myRoomMeta.Matches room) ∧ s.copy = s.myRoomMeta.shown

instance (site : Site) (s : State) : Decidable (s.Agrees site) :=
  inferInstanceAs (Decidable (_ ∧ _))

end State

/-! ## Steps -/

/-- One operation of the relay's task of a connection. -/
inductive RelayOp
  /-- `ConnectionRegistry::insert`, once the hello is authenticated. -/
  | register (nowMs : Int)
  /-- `RoomStateStore::on_connection_inserted`. -/
  | store
  /-- `room_meta_update`, up to the patch of the snapshot. -/
  | frame
  /-- The next publication to the subscriber. -/
  | deliver
  /-- `ConnectionRegistry::remove`, when the connection has ended. -/
  | unregister
  /-- `RoomStateStore::on_connection_removed`. -/
  | drop (nowMs : Int)
  deriving DecidableEq

/-- What happens next in the system. -/
inductive Action
  | publish (patch : RoomMetaPatch)
  /-- `publishChanged` of the telemetry sampler. -/
  | sample (candidate : SessionTelemetry)
  /-- `reset` of the telemetry sampler. -/
  | reset
  /-- A connection attempt begins, from `start` or from the reconnect timer. -/
  | connect
  | connectFailed
  /-- The attempt succeeds and `onConnected` runs. -/
  | connected (working background : Bool)
  /-- `onRelayClose`. -/
  | closed
  | relay (i : Nat) (op : RelayOp)
  deriving DecidableEq

/-- One operation of the task of connection `i`. The task publishes what it has to before it
goes on. -/
def Site.task (site : Site) (s : State) (i : Nat) (link : Link) : RelayOp → Option State
  | .register nowMs =>
    match link.phase with
    | .waiting =>
      let inserted := s.connections.insert site.peerId site.roomId site.deviceId site.tx
      some ({ s with connections := inserted.1 }.setLink i
        { link with phase := .inserted (ofHello site.roomId link.hello nowMs) inserted.2 })
    | _ => none
  | .store =>
    match link.phase with
    | .inserted room insert =>
      let stored := s.roomState.onConnectionInserted site.peerId room insert
      some ({ s with roomState := stored.1 }.setLink i
        { link with
          phase := .serving insert.connId
          outbox := (stored.2.map (ServerFrame.roomAnnounced site.peerId)).toList })
    | _ => none
  | .frame =>
    match link with
    | ⟨hello, patch :: frames, .serving connId, []⟩ =>
      match s.roomState.applyPatch site.peerId site.roomId patch with
      | none => some (s.setLink i ⟨hello, frames, .serving connId, []⟩)
      | some (roomState, room) =>
        some ({ s with roomState := roomState }.setLink i
          ⟨hello, frames, .serving connId,
            if patch.isEmpty then []
            else [.roomMetaUpdated site.peerId site.roomId room.projection]⟩)
    | _ => none
  | .deliver =>
    match link.outbox with
    | [] => none
    | frame :: outbox =>
      some ({ s with copy := receive s.copy frame }.setLink i { link with outbox := outbox })
  | .unregister =>
    match link with
    | ⟨hello, frames, .serving connId, []⟩ =>
      let removed := s.connections.remove site.peerId site.roomId connId
      some ({ s with connections := removed.1 }.setLink i ⟨hello, frames, .removed removed.2, []⟩)
    | _ => none
  | .drop nowMs =>
    match link.phase with
    | .removed remove =>
      let dropped := s.roomState.onConnectionRemoved site.peerId site.roomId remove nowMs
      some ({ s with roomState := dropped.1 }.setLink i
        { link with
          phase := .gone
          outbox := (dropped.2.map fun ended : RoomEnded =>
            ServerFrame.roomEnded site.peerId ended.roomId ended.sinceTs).toList })
    | _ => none

/-- One step of the system. A connection attempt is made only while there is neither a bound
connection nor another attempt. -/
def Site.step (site : Site) (s : State) : Action → Option State
  | .publish patch => some (s.publish patch)
  | .sample candidate =>
    let patch := (s.telemetry.changed candidate).patchForHello
    some ({ s with telemetry := s.telemetry.noted candidate }.publishAll
      (if patch.isEmpty then [] else [patch]))
  | .reset => some { s with telemetry := .unsampled }
  | .connect =>
    if s.relay = none ∧ s.attempt = none then
      some { s with
        attempt := some s.links.length
        links := s.links ++ [⟨s.roomMeta, [], .waiting, []⟩] }
    else none
  | .connectFailed => if s.attempt = none then none else some { s with attempt := none }
  | .connected working background =>
    match s.attempt with
    | none => none
    | some i =>
      some ({ s with attempt := none, relay := some i }.publishAll
        (republished working background s.telemetry))
  | .closed => if s.relay = none then none else some { s with relay := none }
  | .relay i op => s.links[i]?.bind fun link => site.task s i link op

/-- The Pi, its connections and the relay's tasks, from the start of the Pi. -/
def Site.system (site : Site) : Machine State Action where
  Init s := ∃ room telemetry, s = .start room telemetry
  step := site.step

/-- A patch clears nothing that is set. An attempt succeeds only when the metadata differs from
what its hello carried at most in fields that are published again. The relay neither writes the
snapshot nor publishes for a connection once a later one has stored its snapshot. -/
def InOrder (s : State) : Action → Prop
  | .publish patch => ClearsNothing s.myRoomMeta patch
  | .connected _ _ =>
    ∀ link ∈ s.attempt.bind fun i => s.links[i]?,
      DifferInRepublished s.telemetry link.hello.shown s.myRoomMeta.shown
  | .relay i .store => s.NewestStored i
  | .relay i .frame => s.NewestStored i
  | .relay i .deliver => s.NewestStored i
  | .relay i (.drop _) => (s.links[i]?.any Link.empties) = true → s.NewestStored i
  | _ => True

instance : ∀ s a, Decidable (InOrder s a)
  | s, .publish patch => inferInstanceAs (Decidable (ClearsNothing s.myRoomMeta patch))
  | s, .connected _ _ =>
    inferInstanceAs (Decidable (∀ link ∈ s.attempt.bind fun i => s.links[i]?, _))
  | s, .relay i .store => inferInstanceAs (Decidable (s.NewestStored i))
  | s, .relay i .frame => inferInstanceAs (Decidable (s.NewestStored i))
  | s, .relay i .deliver => inferInstanceAs (Decidable (s.NewestStored i))
  | s, .relay i (.drop _) =>
    inferInstanceAs (Decidable ((s.links[i]?.any Link.empties) = true → s.NewestStored i))
  | _, .sample _ => .isTrue trivial
  | _, .reset => .isTrue trivial
  | _, .connect => .isTrue trivial
  | _, .connectFailed => .isTrue trivial
  | _, .closed => .isTrue trivial
  | _, .relay _ (.register _) => .isTrue trivial
  | _, .relay _ .unregister => .isTrue trivial

end OutpostPi.Pi.RoomMetaAgreement
