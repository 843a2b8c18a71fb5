import OutpostPi.Lib.OrderedMap
import OutpostPi.Relay.RoomChecks

/-!
# The cross-PC broker and its siblings

`BrokerRemote` knows the siblings of this Pi, and for each of them the live rooms that the relay
has told it. It subscribes to the rooms of a sibling once, asks for a snapshot while it knows no
room, and repeats neither until the sibling leaves and returns (`subscribeToRooms`,
`requestRooms`). Every publication of the membership starts the exchange again
(`bootstrapWithSiblings`).

The roster of remote peers is not modelled: of the envelopes that carry it only the destinations
are kept.
-/

set_option autoImplicit false

namespace OutpostPi.Session

open OutpostPi.Lib OutpostPi.Relay

/-- Another Pi of the same Owner. -/
structure SiblingInfo where
  pcLabel : String
  pcPubkey : PeerId
  deriving DecidableEq

/-- The control frames that the broker sends to the relay. -/
inductive RoomControl
  | subscribeRooms (peers : List PeerId)
  | roomsCheck (peers : List PeerId)
  deriving DecidableEq

/-- What the broker sends: control frames to the relay, and envelopes to a room of a sibling. -/
inductive Sent
  | control (frame : RoomControl)
  | peersRequest (toPc : PeerId) (toRoom : RoomId)
  | peersUpdate (toPc : PeerId) (toRoom : RoomId)
  deriving DecidableEq

/-- The room frames that the relay sends. -/
inductive RelayRoomFrame
  | rooms (frame : RoomsFrame)
  | roomAnnounced (peer : PeerId) (roomId : RoomId) (startedAt : Int)
  | roomEnded (peer : PeerId) (roomId : RoomId)
  deriving DecidableEq

/-- The bridge of a Pi, with what it knows of its siblings and their rooms. -/
structure BrokerRemote where
  /-- The order of texts in the locale of the process. -/
  localeCompare : String → String → Ordering
  selfPcLabel : String
  selfPcPubkey : PeerId
  siblingByLabel : OrderedMap String PeerId
  siblingByPubkey : OrderedMap PeerId String
  siblingRooms : Map PeerId (List RoomId)
  siblingRoomStartedAt : Map PeerId (OrderedMap RoomId Int)
  subscribedRooms : List PeerId
  pendingRoomChecks : List PeerId
  detached : Bool

namespace BrokerRemote

/-! ## Siblings -/

/-- Add a sibling. A Pi never lists itself. -/
def addSibling (broker : BrokerRemote) (s : SiblingInfo) : BrokerRemote :=
  if s.pcLabel = "" ∨ s.pcPubkey = "" then broker
  else if s.pcLabel = broker.selfPcLabel then broker
  else if s.pcPubkey = broker.selfPcPubkey then broker
  else
    { broker with
      siblingByLabel := broker.siblingByLabel.set s.pcLabel s.pcPubkey
      siblingByPubkey := broker.siblingByPubkey.set s.pcPubkey s.pcLabel }

/-! ## Rooms -/

/-- Subscribe to the rooms of a sibling, once. -/
def subscribeToRooms (broker : BrokerRemote) (pcPubkey : PeerId) : BrokerRemote × List Sent :=
  if broker.detached = true ∨ pcPubkey ∈ broker.subscribedRooms then (broker, [])
  else
    ({ broker with subscribedRooms := pcPubkey :: broker.subscribedRooms },
      [.control (.subscribeRooms [pcPubkey])])

/-- Ask for the rooms of a sibling, unless an answer is awaited. -/
def requestRooms (broker : BrokerRemote) (pcPubkey : PeerId) : BrokerRemote × List Sent :=
  if broker.detached = true ∨ pcPubkey ∈ broker.pendingRoomChecks then (broker, [])
  else
    ({ broker with pendingRoomChecks := pcPubkey :: broker.pendingRoomChecks },
      [.control (.roomsCheck [pcPubkey])])

/-- The rooms of a sibling that the broker knows, oldest first. -/
def roomsOf (broker : BrokerRemote) (pcPubkey : PeerId) : List RoomId :=
  (broker.siblingRooms.lookup pcPubkey).getD []

/-- The oldest known room of a sibling; without one the broker asks for the rooms. -/
def pickRoom (broker : BrokerRemote) (pcPubkey : PeerId) :
    BrokerRemote × List Sent × Option RoomId :=
  match (broker.roomsOf pcPubkey).head?.filter (· ≠ "") with
  | some room => (broker, [], some room)
  | none =>
    let (subscribed, subscription) := broker.subscribeToRooms pcPubkey
    let (requested, request) := subscribed.requestRooms pcPubkey
    (requested, subscription ++ request, none)

/-- Send an envelope unless the bridge is detached. -/
def sendControlEnvelopeToRoom (broker : BrokerRemote) (envelope : Sent) : List Sent :=
  if broker.detached then [] else [envelope]

/-- One sibling's part of the bootstrap. -/
def bootstrapSibling (broker : BrokerRemote) (pcPubkey : PeerId) : BrokerRemote × List Sent :=
  let (subscribed, subscription) := broker.subscribeToRooms pcPubkey
  let (picked, request, room) := subscribed.pickRoom pcPubkey
  let greeting : List Sent :=
    match room with
    | none => []
    | some room =>
      picked.sendControlEnvelopeToRoom (.peersRequest pcPubkey room) ++
        picked.sendControlEnvelopeToRoom (.peersUpdate pcPubkey room)
  (picked, subscription ++ request ++ greeting)

/-- Ask about the siblings one after another. -/
def bootstrapAll (broker : BrokerRemote) : List PeerId → BrokerRemote × List Sent
  | [] => (broker, [])
  | pcPubkey :: rest =>
    let (next, sent) := broker.bootstrapSibling pcPubkey
    let (last, more) := next.bootstrapAll rest
    (last, sent ++ more)

/-- Ask about all siblings. -/
def bootstrapWithSiblings (broker : BrokerRemote) : BrokerRemote × List Sent :=
  broker.bootstrapAll broker.siblingByLabel.values

/-- Forget the rooms of a sibling that disappeared. -/
def forgetSibling (broker : BrokerRemote) (pcPubkey : PeerId) : BrokerRemote :=
  { broker with
    siblingRooms := broker.siblingRooms.erase pcPubkey
    siblingRoomStartedAt := broker.siblingRoomStartedAt.erase pcPubkey
    subscribedRooms := broker.subscribedRooms.filter (· ≠ pcPubkey)
    pendingRoomChecks := broker.pendingRoomChecks.filter (· ≠ pcPubkey) }

/-- Replace the sibling set and bootstrap again. -/
def setSiblings (broker : BrokerRemote) (next : List SiblingInfo) : BrokerRemote × List Sent :=
  if broker.detached then (broker, [])
  else
    let prevPubkeys := broker.siblingByPubkey.keys
    let replaced := next.foldl addSibling
      { broker with siblingByLabel := .empty, siblingByPubkey := .empty }
    let gone := prevPubkeys.filter fun pubkey => pubkey ∉ replaced.siblingByPubkey.keys
    (gone.foldl forgetSibling replaced).bootstrapWithSiblings

/-- The fields of a broker before any sibling is added. -/
def initial (localeCompare : String → String → Ordering) (selfPcLabel : String)
    (selfPcPubkey : PeerId) : BrokerRemote where
  localeCompare := localeCompare
  selfPcLabel := selfPcLabel
  selfPcPubkey := selfPcPubkey
  siblingByLabel := .empty
  siblingByPubkey := .empty
  siblingRooms := ∅
  siblingRoomStartedAt := ∅
  subscribedRooms := []
  pendingRoomChecks := []
  detached := false

/-- A broker for some siblings, which it bootstraps at once. -/
def new (localeCompare : String → String → Ordering) (selfPcLabel : String)
    (selfPcPubkey : PeerId) (siblings : List SiblingInfo) : BrokerRemote × List Sent :=
  (siblings.foldl addSibling
    (initial localeCompare selfPcLabel selfPcPubkey)).bootstrapWithSiblings

/-- A bridge that is replaced does nothing any more. -/
def detach (broker : BrokerRemote) : BrokerRemote := { broker with detached := true }

/-! ## Frames of the relay -/

/-- Rooms in the order of their start, and of their ids in the locale where they started
together. -/
def orderedRooms (localeCompare : String → String → Ordering) (startedAt : OrderedMap RoomId Int) :
    List RoomId :=
  (startedAt.entries.insertionSort fun a b =>
    a.2 < b.2 ∨ a.2 = b.2 ∧ localeCompare a.1 b.1 ≠ .gt).map Prod.fst

/-- The rooms of a sibling with their start times. -/
def startedAtOf (broker : BrokerRemote) (pcPubkey : PeerId) : OrderedMap RoomId Int :=
  (broker.siblingRoomStartedAt.lookup pcPubkey).getD .empty

/-- Order the rooms of a sibling anew. -/
def replaceOrderedRooms (broker : BrokerRemote) (pcPubkey : PeerId) : BrokerRemote :=
  { broker with
    siblingRooms :=
      broker.siblingRooms.insert pcPubkey
        (orderedRooms broker.localeCompare (broker.startedAtOf pcPubkey)) }

/-- A snapshot replaces what is known of a sibling, and every room is asked for its peers. -/
def handleRooms (broker : BrokerRemote) (frame : RoomsFrame) : BrokerRemote × List Sent :=
  if broker.detached = true ∨ frame.peer ∉ broker.siblingByPubkey.keys then (broker, [])
  else
    let startedAt := OrderedMap.ofList (frame.rooms.map fun room => (room.roomId, room.startedAt))
    let known := replaceOrderedRooms
      { broker with
        pendingRoomChecks := broker.pendingRoomChecks.filter (· ≠ frame.peer)
        siblingRoomStartedAt := broker.siblingRoomStartedAt.insert frame.peer startedAt }
      frame.peer
    (known, (known.roomsOf frame.peer).map (Sent.peersRequest frame.peer))

/-- A room of a sibling is announced. -/
def handleRoomAnnounced (broker : BrokerRemote) (peer : PeerId) (roomId : RoomId)
    (startedAt : Int) : BrokerRemote :=
  if broker.detached = true ∨ peer ∉ broker.siblingByPubkey.keys then broker
  else
    replaceOrderedRooms
      { broker with
        pendingRoomChecks := broker.pendingRoomChecks.filter (· ≠ peer)
        siblingRoomStartedAt :=
          broker.siblingRoomStartedAt.insert peer ((broker.startedAtOf peer).set roomId startedAt) }
      peer

/-- A room of a sibling has ended. -/
def handleRoomEnded (broker : BrokerRemote) (peer : PeerId) (roomId : RoomId) : BrokerRemote :=
  if broker.detached = true ∨ peer ∉ broker.siblingByPubkey.keys then broker
  else
    let ended :=
      match broker.siblingRoomStartedAt.lookup peer with
      | none => broker
      | some startedAt =>
        { broker with
          siblingRoomStartedAt :=
            broker.siblingRoomStartedAt.insert peer (startedAt.erase roomId) }
    ended.replaceOrderedRooms peer

/-- A room frame of the relay. -/
def receive (broker : BrokerRemote) : RelayRoomFrame → BrokerRemote × List Sent
  | .rooms frame => broker.handleRooms frame
  | .roomAnnounced peer roomId startedAt =>
    (broker.handleRoomAnnounced peer roomId startedAt, [])
  | .roomEnded peer roomId => (broker.handleRoomEnded peer roomId, [])

/-! ## Lemmas -/

section Lemmas

variable {broker : BrokerRemote}

theorem mem_orderedRooms {localeCompare : String → String → Ordering}
    {startedAt : OrderedMap RoomId Int} {room : RoomId} :
    room ∈ orderedRooms localeCompare startedAt ↔ room ∈ startedAt.keys := by
  rw [orderedRooms, ((List.perm_insertionSort _ _).map _).mem_iff]
  rfl

/-- Both tables of the broker know the same rooms. -/
def Consistent (broker : BrokerRemote) : Prop :=
  ∀ peer room, room ∈ broker.roomsOf peer ↔ room ∈ (broker.startedAtOf peer).keys

/-- Ordering the rooms of a peer again leaves those of the others. -/
theorem mem_roomsOf_replaceOrderedRooms {peer other : PeerId} {room : RoomId} :
    room ∈ (broker.replaceOrderedRooms peer).roomsOf other ↔
      if other = peer then room ∈ (broker.startedAtOf peer).keys
      else room ∈ broker.roomsOf other := by
  rw [replaceOrderedRooms, roomsOf]
  by_cases same : other = peer
  · rw [if_pos same, same, AList.lookup_insert, Option.getD_some, mem_orderedRooms]
  · rw [if_neg same, AList.lookup_insert_ne same]
    rfl

end Lemmas

end BrokerRemote

end OutpostPi.Session
