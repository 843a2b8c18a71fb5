import OutpostPi.Lib.Map

/-!
# Live connections of the relay

The table `ConnectionRegistry` holds the authenticated connections that are live at each
`(peer_id, room_id)` key, together with the sending half of each connection's bounded mailbox.
A key is dropped with its last connection, so no key carries an empty list; the structure
keeps that fact as a field.

The operations are `insert`, `remove`, `isOnline`, `sendToRoom` and `sendToPeer`. The lemmas at
the end say what each of them does to the set of live keys, in the form in which the lifecycle
of the relay uses them: `mem_insert`, `remove_cases` and `mem_sendToPeer`.
-/

set_option autoImplicit false

namespace OutpostPi.Relay

open OutpostPi.Lib

abbrev PeerId := String

abbrev RoomId := String

abbrev DeviceId := String

/-- Connection identifiers come from a wrapping 64-bit counter. -/
abbrev ConnId := UInt64

/-- A `(peer_id, room_id)` pair. -/
abbrev RoomKey := PeerId × RoomId

/-! ## Mailboxes -/

/-- The sending half of a bounded channel. `queued` lists every message accepted so far and
`received` counts those already taken out. -/
structure Sender (Message : Type) where
  capacity : Nat
  queued : List Message
  received : Nat
  closed : Bool
  deriving DecidableEq

variable {Message : Type}

namespace Sender

/-- A fresh channel. -/
def channel (capacity : Nat) : Sender Message := ⟨capacity, [], 0, false⟩

/-- Every slot of the channel is taken. -/
def isFull (tx : Sender Message) : Bool :=
  decide (tx.capacity ≤ tx.queued.length - tx.received)

end Sender

/-- The outcome of a non-blocking send. -/
inductive TrySend (Message : Type)
  | ok (tx : Sender Message)
  | full
  | closed

/-- Queue a message unless the receiver is gone or no slot is free. -/
def Sender.trySend (tx : Sender Message) (msg : Message) : TrySend Message :=
  if tx.closed then .closed
  else if tx.isFull then .full
  else .ok { tx with queued := tx.queued ++ [msg] }

/-! ## Connections -/

/-- One live connection. `disconnect` records whether its owner was asked to close it. -/
structure ConnectionEntry (Message : Type) where
  connId : ConnId
  deviceId : DeviceId
  tx : Sender Message
  disconnect : Bool
  deriving DecidableEq

/-- What `insert` observed and replaced. -/
structure ConnectionInsert where
  peerId : PeerId
  connId : ConnId
  wasOfflineBefore : Bool
  isFirstInRoom : Bool
  supersededExisting : Bool
  supersededSameDeviceConnIds : List ConnId
  deriving DecidableEq

/-- What `remove` observed. -/
structure ConnectionRemove where
  peerId : PeerId
  removedConnection : Bool
  roomEmptied : Bool
  peerOfflined : Bool
  deriving DecidableEq

/-- How many mailboxes took a message, and how many had no free slot. -/
structure DeliveryReport where
  delivered : Nat
  saturated : Nat
  deriving DecidableEq

/-- The connections live at each key. No key is kept without a connection. -/
structure ConnectionRegistry (Message : Type) where
  nextConn : ConnId
  senders : Map RoomKey (List (ConnectionEntry Message))
  nonempty : ∀ key entries, senders.lookup key = some entries → entries ≠ []

namespace ConnectionRegistry

/-- The registry at start-up. -/
def new : ConnectionRegistry Message where
  nextConn := 0
  senders := ∅
  nonempty := by simp

/-- The connections at a key, in the order in which they were inserted. -/
def entriesAt (registry : ConnectionRegistry Message) (key : RoomKey) :
    List (ConnectionEntry Message) :=
  (registry.senders.lookup key).getD []

/-- Whether a peer has a live connection in some room. -/
def isOnline (registry : ConnectionRegistry Message) (peerId : PeerId) : Bool :=
  Map.anyKey registry.senders fun key => key.1 == peerId

/-- Whether a key has at least one live connection. -/
def Live (registry : ConnectionRegistry Message) (key : RoomKey) : Prop :=
  registry.entriesAt key ≠ []

instance (registry : ConnectionRegistry Message) (key : RoomKey) : Decidable (registry.Live key) :=
  decidable_of_iff ((registry.entriesAt key).isEmpty = false) (by simp [Live])

/-- Add a connection, dropping those of the same device at the same key. Being the first in
the room is decided before that replacement. -/
def insert (registry : ConnectionRegistry Message) (peerId : PeerId) (roomId : RoomId)
    (deviceId : DeviceId) (tx : Sender Message) :
    ConnectionRegistry Message × ConnectionInsert :=
  let key := (peerId, roomId)
  let connId := registry.nextConn
  let entries := registry.entriesAt key
  let retained := entries.filter fun entry => entry.deviceId != deviceId
  let superseded := entries.filter fun entry => entry.deviceId == deviceId
  let added : ConnectionEntry Message := ⟨connId, deviceId, tx, false⟩
  ({ nextConn := registry.nextConn + 1
     senders := registry.senders.insert key (retained ++ [added])
     nonempty := by
      intro key' entries' found
      by_cases same : key' = key
      · subst same
        rw [AList.lookup_insert, Option.some.injEq] at found
        subst found
        simp
      · rw [AList.lookup_insert_ne same] at found
        exact registry.nonempty key' entries' found },
   { peerId := peerId
     connId := connId
     wasOfflineBefore := !registry.isOnline peerId
     isFirstInRoom := entries.length == 0
     supersededExisting := decide (entries.length > 0)
     supersededSameDeviceConnIds := superseded.map ConnectionEntry.connId })

/-- Remove one connection, and its key when no connection is left there. -/
def remove (registry : ConnectionRegistry Message) (peerId : PeerId) (roomId : RoomId)
    (connId : ConnId) : ConnectionRegistry Message × ConnectionRemove :=
  let key := (peerId, roomId)
  match registry.senders.lookup key with
  | none => (registry, ⟨peerId, false, false, false⟩)
  | some entries =>
    let kept := entries.filter fun entry => entry.connId != connId
    let removedConnection := kept.length != entries.length
    if empty : kept = [] then
      let senders := registry.senders.erase key
      ({ registry with
          senders := senders
          nonempty := by
            intro key' entries' found
            by_cases same : key' = key
            · subst same
              rw [AList.lookup_erase] at found
              exact absurd found (by simp)
            · rw [AList.lookup_erase_ne same] at found
              exact registry.nonempty key' entries' found },
       { peerId := peerId
         removedConnection := removedConnection
         roomEmptied := removedConnection
         peerOfflined :=
          removedConnection && !Map.anyKey senders fun candidate => candidate.1 == peerId })
    else
      ({ registry with
          senders := registry.senders.insert key kept
          nonempty := by
            intro key' entries' found
            by_cases same : key' = key
            · subst same
              rw [AList.lookup_insert, Option.some.injEq] at found
              exact found ▸ empty
            · rw [AList.lookup_insert_ne same] at found
              exact registry.nonempty key' entries' found },
       ⟨peerId, removedConnection, false, false⟩)

end ConnectionRegistry

/-! ## Delivery -/

instance : Add DeliveryReport where
  add left right := ⟨left.delivered + right.delivered, left.saturated + right.saturated⟩

namespace DeliveryReport

/-- Nothing was delivered and nothing was dropped. -/
def default : DeliveryReport := ⟨0, 0⟩

/-- Whether the destination existed, even if every matching mailbox was full. -/
def accepted (report : DeliveryReport) : Bool :=
  decide (report.delivered > 0) || decide (report.saturated > 0)

/-- The report of several deliveries. -/
def total (reports : List DeliveryReport) : DeliveryReport :=
  reports.foldl (· + ·) default

end DeliveryReport

/-- Offer a message to one connection. A full mailbox drops the message and asks the owner of
the connection to close it. -/
def ConnectionEntry.offer (entry : ConnectionEntry Message) (msg : Message)
    (skipConnId : Option ConnId) : ConnectionEntry Message × DeliveryReport :=
  if skipConnId = some entry.connId then (entry, .default)
  else
    match entry.tx.trySend msg with
    | .ok tx => ({ entry with tx := tx }, ⟨1, 0⟩)
    | .full => ({ entry with disconnect := true }, ⟨0, 1⟩)
    | .closed => (entry, .default)

/-- Offer a message to every connection of a list. -/
def deliver (entries : List (ConnectionEntry Message)) (msg : Message)
    (skipConnId : Option ConnId) : List (ConnectionEntry Message) × DeliveryReport :=
  (entries.map fun entry => (entry.offer msg skipConnId).1,
    .total (entries.map fun entry => (entry.offer msg skipConnId).2))

namespace ConnectionRegistry

/-- Rewrite the connections at each key, keeping their number. -/
def mapEntries (registry : ConnectionRegistry Message)
    (f : RoomKey → ConnectionEntry Message → ConnectionEntry Message) :
    ConnectionRegistry Message where
  nextConn := registry.nextConn
  senders := Map.mapValues (fun key entries => entries.map (f key)) registry.senders
  nonempty := by
    intro key entries found
    rw [Map.lookup_mapValues, Option.map_eq_some_iff] at found
    obtain ⟨entries', found', rfl⟩ := found
    simpa using registry.nonempty key entries' found'

/-- Deliver a message to every connection of one room except the one to be skipped. -/
def sendToRoom (registry : ConnectionRegistry Message) (destPeer : PeerId) (destRoom : RoomId)
    (msg : Message) (skipConnId : ConnId) : ConnectionRegistry Message × DeliveryReport :=
  let key := (destPeer, destRoom)
  match registry.senders.lookup key with
  | none => (registry, .default)
  | some entries =>
    (registry.mapEntries fun key' entry =>
        if key' = key then (entry.offer msg (some skipConnId)).1 else entry,
      (deliver entries msg (some skipConnId)).2)

/-- Deliver a message to every connection of a peer. -/
def sendToPeer (registry : ConnectionRegistry Message) (peerId : PeerId) (msg : Message) :
    ConnectionRegistry Message × DeliveryReport :=
  (registry.mapEntries fun key entry =>
      if key.1 == peerId then (entry.offer msg none).1 else entry,
    .total (registry.senders.entries.map fun slot =>
      if slot.1.1 == peerId then (deliver slot.2 msg none).2 else .default))

/-- The socket owner of a connection takes one message out of its mailbox. -/
def recv (registry : ConnectionRegistry Message) (key : RoomKey) (connId : ConnId) :
    ConnectionRegistry Message :=
  registry.mapEntries fun key' entry =>
    if key' = key ∧ entry.connId = connId ∧ entry.tx.received < entry.tx.queued.length then
      { entry with tx := { entry.tx with received := entry.tx.received + 1 } }
    else entry

/-- The socket owner of a connection drops the receiving half of its mailbox. -/
def close (registry : ConnectionRegistry Message) (key : RoomKey) (connId : ConnId) :
    ConnectionRegistry Message :=
  registry.mapEntries fun key' entry =>
    if key' = key ∧ entry.connId = connId then
      { entry with tx := { entry.tx with closed := true } }
    else entry

end ConnectionRegistry

namespace ConnectionRegistry

variable {registry : ConnectionRegistry Message} {peerId : PeerId} {roomId : RoomId}
  {key : RoomKey}

/-! ## Live keys -/

theorem live_iff_mem : registry.Live key ↔ key ∈ registry.senders := by
  rw [Map.mem_iff_lookup, Live, entriesAt]
  constructor
  · intro live
    cases found : registry.senders.lookup key with
    | none => simp [found] at live
    | some entries => exact ⟨entries, rfl⟩
  · rintro ⟨entries, found⟩
    simpa [found] using registry.nonempty key entries found

/-- A peer is online exactly when one of its rooms is live. -/
theorem isOnline_iff_live :
    registry.isOnline peerId = true ↔ ∃ room, registry.Live (peerId, room) := by
  rw [isOnline, Map.anyKey_eq_true]
  constructor
  · rintro ⟨⟨candidate, room⟩, mem, same⟩
    obtain rfl : candidate = peerId := by simpa using same
    exact ⟨room, live_iff_mem.mpr mem⟩
  · rintro ⟨room, live⟩
    exact ⟨(peerId, room), live_iff_mem.mp live, by simp⟩

/-- No key is live at start-up. -/
theorem not_live_new : ¬ (new : ConnectionRegistry Message).Live key := by
  simp [live_iff_mem, new]

/-- Two registries with the same live keys agree on who is online. -/
theorem isOnline_congr {registry' : ConnectionRegistry Message}
    (same : ∀ room, registry'.Live (peerId, room) ↔ registry.Live (peerId, room)) :
    registry'.isOnline peerId = registry.isOnline peerId := by
  rw [Bool.eq_iff_iff, isOnline_iff_live, isOnline_iff_live]
  exact exists_congr same

section Insert

variable {deviceId : DeviceId} {tx : Sender Message}

/-- Insertion makes its key live and leaves the other keys as they were. -/
theorem live_insert :
    (registry.insert peerId roomId deviceId tx).1.Live key ↔
      key = (peerId, roomId) ∨ registry.Live key := by
  rw [live_iff_mem, live_iff_mem]
  exact AList.mem_insert _

/-- A connection is reported first exactly when its key was not live. -/
theorem isFirstInRoom_insert :
    (registry.insert peerId roomId deviceId tx).2.isFirstInRoom = true ↔
      ¬ registry.Live (peerId, roomId) := by
  simp [insert, Live, List.length_eq_zero_iff]

theorem wasOfflineBefore_insert :
    (registry.insert peerId roomId deviceId tx).2.wasOfflineBefore = !registry.isOnline peerId :=
  rfl

/-- The peer of an inserted connection is online afterwards. -/
theorem isOnline_insert_self :
    (registry.insert peerId roomId deviceId tx).1.isOnline peerId = true :=
  isOnline_iff_live.mpr ⟨roomId, live_insert.mpr (Or.inl rfl)⟩

/-- Insertion does not change whether another peer is online. -/
theorem isOnline_insert_of_ne {other : PeerId} (distinct : other ≠ peerId) :
    (registry.insert peerId roomId deviceId tx).1.isOnline other = registry.isOnline other := by
  refine isOnline_congr fun room => ?_
  rw [live_insert]
  simp [distinct]

end Insert

section Remove

variable (registry) (peerId) (roomId) (connId : ConnId)

theorem peerId_remove : (registry.remove peerId roomId connId).2.peerId = peerId := by
  rw [remove]
  split
  · rfl
  · dsimp only
    split <;> rfl

/-- Removal either empties a live room or leaves the set of live keys alone. The peer is
reported offline exactly when an emptied room was its last. -/
theorem remove_cases :
    ((registry.remove peerId roomId connId).2.roomEmptied = true ∧
        (registry.remove peerId roomId connId).2.removedConnection = true ∧
        registry.Live (peerId, roomId) ∧
        (∀ key, (registry.remove peerId roomId connId).1.Live key ↔
          key ≠ (peerId, roomId) ∧ registry.Live key) ∧
        (registry.remove peerId roomId connId).2.peerOfflined =
          !(registry.remove peerId roomId connId).1.isOnline peerId) ∨
      ((registry.remove peerId roomId connId).2.roomEmptied = false ∧
        (registry.remove peerId roomId connId).2.peerOfflined = false ∧
        ∀ key, (registry.remove peerId roomId connId).1.Live key ↔ registry.Live key) := by
  cases found : registry.senders.lookup (peerId, roomId) with
  | none => right; simp [remove, found]
  | some entries =>
    have occupied := registry.nonempty _ _ found
    have live : (peerId, roomId) ∈ registry.senders := Map.mem_iff_lookup.mpr ⟨_, found⟩
    by_cases empty : entries.filter (fun entry => entry.connId != connId) = []
    · left
      have removed : (0 != entries.length) = true := by
        rw [bne_iff_ne]
        exact Nat.ne_of_lt (List.length_pos_iff.mpr occupied)
      simp only [remove, found, empty, dite_true, List.length_nil, removed, Bool.true_and,
        true_and, isOnline, live_iff_mem]
      exact ⟨live, fun key => AList.mem_erase, trivial⟩
    · right
      simp only [remove, found, empty, dite_false, true_and, live_iff_mem]
      intro key
      rw [AList.mem_insert]
      constructor
      · rintro (rfl | mem)
        · exact live
        · exact mem
      · exact Or.inr

end Remove

/-! ## Rewriting entries in place -/

section MapEntries

variable {f : RoomKey → ConnectionEntry Message → ConnectionEntry Message}

@[simp] theorem entriesAt_mapEntries :
    (registry.mapEntries f).entriesAt key = (registry.entriesAt key).map (f key) := by
  simp only [mapEntries, entriesAt, Map.lookup_mapValues]
  cases registry.senders.lookup key <;> rfl

@[simp] theorem live_mapEntries : (registry.mapEntries f).Live key ↔ registry.Live key := by
  simp [Live]

end MapEntries

/-! ## One connection -/

/-- The connection with a given identifier at a key. -/
def entryOf (registry : ConnectionRegistry Message) (key : RoomKey) (connId : ConnId) :
    Option (ConnectionEntry Message) :=
  (registry.entriesAt key).find? fun entry => entry.connId == connId

section Entry

variable {connId : ConnId} {entry : ConnectionEntry Message}

/-- A connection found first in a list is found first in any part of the list it belongs to. -/
private theorem find?_filter_of_find? {α : Type} {entries : List α} {wanted kept : α → Bool}
    {found : α} (isFound : entries.find? wanted = some found) (isKept : kept found = true) :
    (entries.filter kept).find? wanted = some found := by
  induction entries with
  | nil => simp at isFound
  | cons head entries ih =>
    rw [List.find?_cons] at isFound
    cases hit : wanted head with
    | true =>
      rw [hit] at isFound
      obtain rfl : head = found := by simpa using isFound
      simp [isKept, hit]
    | false =>
      rw [hit] at isFound
      rw [List.filter_cons]
      split
      · rw [List.find?_cons, hit]
        exact ih isFound
      · exact ih isFound

theorem entriesAt_insert {peerId' : PeerId} {deviceId : DeviceId} {tx : Sender Message} :
    (registry.insert peerId' roomId deviceId tx).1.entriesAt key =
      if key = (peerId', roomId) then
        (registry.entriesAt key).filter (fun entry => entry.deviceId != deviceId) ++
          [⟨registry.nextConn, deviceId, tx, false⟩]
      else registry.entriesAt key := by
  by_cases same : key = (peerId', roomId)
  · subst same
    simp [insert, entriesAt]
  · simp [insert, entriesAt, same, AList.lookup_insert_ne same]

/-- A connection survives the insertions of other devices. -/
theorem entryOf_insert {deviceId : DeviceId} {tx : Sender Message}
    (found : registry.entryOf key connId = some entry)
    (other : key = (peerId, roomId) → entry.deviceId ≠ deviceId) :
    (registry.insert peerId roomId deviceId tx).1.entryOf key connId = some entry := by
  rw [entryOf, entriesAt_insert]
  split
  · next here =>
    rw [List.find?_append, find?_filter_of_find? found (by simpa using other here)]
    rfl
  · exact found

theorem entriesAt_remove {connId' : ConnId} :
    (registry.remove peerId roomId connId').1.entriesAt key =
      if key = (peerId, roomId) then
        (registry.entriesAt key).filter fun entry => entry.connId != connId'
      else registry.entriesAt key := by
  cases found : registry.senders.lookup (peerId, roomId) with
  | none =>
    by_cases same : key = (peerId, roomId)
    · subst same
      simp [remove, entriesAt, found]
    · simp [remove, entriesAt, found, same]
  | some entries =>
    by_cases empty : entries.filter (fun entry => entry.connId != connId') = []
    · by_cases same : key = (peerId, roomId)
      · subst same
        simp only [remove, entriesAt, found, empty, dite_true, AList.lookup_erase,
          Option.getD_none, Option.getD_some, if_true]
      · simp only [remove, entriesAt, found, empty, dite_true, AList.lookup_erase_ne same, same,
          if_false]
    · by_cases same : key = (peerId, roomId)
      · subst same
        simp only [remove, entriesAt, found, empty, dite_false, AList.lookup_insert,
          Option.getD_some, if_true]
      · simp only [remove, entriesAt, found, empty, dite_false, AList.lookup_insert_ne same, same,
          if_false]

/-- A connection survives the removals of others. -/
theorem entryOf_remove {connId' : ConnId} (found : registry.entryOf key connId = some entry)
    (other : key = (peerId, roomId) → connId ≠ connId') :
    (registry.remove peerId roomId connId').1.entryOf key connId = some entry := by
  rw [entryOf, entriesAt_remove]
  split
  · next here =>
    refine find?_filter_of_find? found ?_
    have identified : entry.connId = connId := by simpa using List.find?_some found
    simpa [identified] using other here
  · exact found

theorem entryOf_mapEntries (f : RoomKey → ConnectionEntry Message → ConnectionEntry Message)
    (named : ∀ entry, (f key entry).connId = entry.connId) :
    (registry.mapEntries f).entryOf key connId = (registry.entryOf key connId).map (f key) := by
  rw [entryOf, entryOf, entriesAt_mapEntries, List.find?_map]
  congr 2
  funext entry
  simp [named entry]

@[simp] theorem connId_offer {msg : Message} {skip : Option ConnId} :
    (entry.offer msg skip).1.connId = entry.connId := by
  rw [ConnectionEntry.offer]
  split
  · rfl
  · split <;> rfl

/-- A message to a peer is offered to that peer's connections and to no other. -/
theorem entryOf_sendToPeer {msg : Message} :
    (registry.sendToPeer peerId msg).1.entryOf key connId =
      (registry.entryOf key connId).map fun entry =>
        if key.1 == peerId then (entry.offer msg none).1 else entry := by
  refine entryOf_mapEntries _ ?_
  intro entry
  split
  · exact connId_offer
  · rfl

end Entry

end ConnectionRegistry

end OutpostPi.Relay
