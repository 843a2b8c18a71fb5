import OutpostPi.Relay.Connections

/-!
# Canonical room metadata of the relay

`RoomStateStore` holds one metadata snapshot for each `(peer_id, room_id)` key. A registration
refreshes the snapshot and reports it only when the connection is the first of its room; a
removal that empties the room drops the snapshot. `applyPatch` writes the fields present in a
patch, where an absent field is left as it is and a present null clears a nullable field. Both
leave a snapshot that they replace in its place, so that the hash table lists the rooms in the
same order as before.
-/

set_option autoImplicit false

namespace OutpostPi.Relay

open OutpostPi.Lib

/-- Metadata about one active room. -/
structure RoomMeta where
  roomId : RoomId
  name : Option String
  cwd : Option String
  sessionId : Option String
  model : Option String
  thinking : Option String
  working : Bool
  background : Option Bool
  branch : Option String
  ctxPercent : Option UInt64
  ctxMax : Option UInt64
  startedAt : Int
  deriving DecidableEq

/-- A patch over the mutable fields. The outer option of a nullable field tells an absent field
from one that is present and null. -/
structure RoomMetaPatch where
  model : Option (Option String)
  thinking : Option (Option String)
  sessionId : Option (Option String)
  working : Option Bool
  background : Option Bool
  branch : Option (Option String)
  ctxPercent : Option (Option UInt64)
  ctxMax : Option (Option UInt64)
  deriving DecidableEq

/-- No field is present. -/
def RoomMetaPatch.isEmpty (patch : RoomMetaPatch) : Bool :=
  patch.model.isNone && patch.thinking.isNone && patch.sessionId.isNone &&
    patch.working.isNone && patch.background.isNone && patch.branch.isNone &&
    patch.ctxPercent.isNone && patch.ctxMax.isNone

/-- Write the fields that the patch carries. -/
def RoomMeta.apply (room : RoomMeta) (patch : RoomMetaPatch) : RoomMeta :=
  { room with
    model := patch.model.getD room.model
    thinking := patch.thinking.getD room.thinking
    sessionId := patch.sessionId.getD room.sessionId
    working := patch.working.getD room.working
    background := patch.background.or room.background
    branch := patch.branch.getD room.branch
    ctxPercent := patch.ctxPercent.getD room.ctxPercent
    ctxMax := patch.ctxMax.getD room.ctxMax }

/-- A room that has just ended. -/
structure RoomEnded where
  roomId : RoomId
  sinceTs : Int
  deriving DecidableEq

/-- One metadata snapshot per live room, in the order in which the hash table lists them. -/
structure RoomStateStore where
  rooms : Map RoomKey RoomMeta

namespace RoomStateStore

/-- The store at start-up. -/
def new : RoomStateStore := ⟨∅⟩

/-- Refresh the snapshot of a registered room, and report it for the first connection. -/
def onConnectionInserted (store : RoomStateStore) (peerId : PeerId) (room : RoomMeta)
    (insert : ConnectionInsert) : RoomStateStore × Option RoomMeta :=
  (⟨store.rooms.put (peerId, room.roomId) room⟩,
    if insert.isFirstInRoom then some room else none)

/-- Drop the snapshot of an emptied room. -/
def onConnectionRemoved (store : RoomStateStore) (peerId : PeerId) (roomId : RoomId)
    (remove : ConnectionRemove) (sinceTs : Int) : RoomStateStore × Option RoomEnded :=
  if remove.roomEmptied then
    (⟨store.rooms.erase (peerId, roomId)⟩, some ⟨roomId, sinceTs⟩)
  else (store, none)

/-- The snapshots of a peer's rooms. -/
def roomsOf (store : RoomStateStore) (peerId : PeerId) : List RoomMeta :=
  (store.rooms.entries.filter fun slot => slot.1.1 == peerId).map Sigma.snd

/-- Patch the snapshot at a key, if there is one. -/
def applyPatch (store : RoomStateStore) (peerId : PeerId) (roomId : RoomId)
    (patch : RoomMetaPatch) : Option (RoomStateStore × RoomMeta) :=
  (store.rooms.lookup (peerId, roomId)).map fun room =>
    (⟨store.rooms.put (peerId, roomId) (room.apply patch)⟩, room.apply patch)

/-- The table has grown, and lists the rooms in another order. -/
def rehash (store : RoomStateStore) (order : Map.Order RoomKey RoomMeta) : RoomStateStore :=
  ⟨store.rooms.rehash order⟩

/-- Whether the store has a snapshot at a key. -/
def Holds (store : RoomStateStore) (key : RoomKey) : Prop := key ∈ store.rooms

instance (store : RoomStateStore) (key : RoomKey) : Decidable (store.Holds key) :=
  inferInstanceAs (Decidable (key ∈ store.rooms))

variable {store : RoomStateStore} {peerId : PeerId} {roomId : RoomId} {key : RoomKey}

theorem not_holds_new : ¬ new.Holds key := by
  simp [Holds, new]

theorem holds_onConnectionInserted (room : RoomMeta) (insert : ConnectionInsert) :
    (store.onConnectionInserted peerId room insert).1.Holds key ↔
      key = (peerId, room.roomId) ∨ store.Holds key :=
  Map.mem_put

/-- Only the removal of a room's last connection drops its snapshot. -/
theorem holds_onConnectionRemoved {remove : ConnectionRemove} {sinceTs : Int} :
    (store.onConnectionRemoved peerId roomId remove sinceTs).1.Holds key ↔
      store.Holds key ∧ ¬ (remove.roomEmptied = true ∧ key = (peerId, roomId)) := by
  rw [onConnectionRemoved]
  by_cases emptied : remove.roomEmptied = true
  · simp only [emptied, if_true, Holds, AList.mem_erase, true_and, and_comm, ne_eq]
  · simp only [emptied, if_false, Holds, false_and, not_false_eq_true, and_true,
      Bool.false_eq_true]

/-- A patch needs a snapshot and does not change which keys have one. -/
theorem holds_applyPatch {patch : RoomMetaPatch} {store' : RoomStateStore} {room : RoomMeta}
    (patched : store.applyPatch peerId roomId patch = some (store', room)) :
    store'.Holds key ↔ store.Holds key := by
  simp only [applyPatch, Option.map_eq_some_iff, Prod.mk.injEq] at patched
  obtain ⟨old, found, rfl, -⟩ := patched
  have present : (peerId, roomId) ∈ store.rooms := Map.mem_iff_lookup.mpr ⟨old, found⟩
  simp only [Holds, Map.mem_put]
  constructor
  · rintro (rfl | held)
    · exact present
    · exact held
  · exact Or.inr

/-- A patch leaves the rooms in their order. -/
theorem keys_applyPatch {patch : RoomMetaPatch} {store' : RoomStateStore} {room : RoomMeta}
    (patched : store.applyPatch peerId roomId patch = some (store', room)) :
    store'.rooms.keys = store.rooms.keys := by
  simp only [applyPatch, Option.map_eq_some_iff, Prod.mk.injEq] at patched
  obtain ⟨old, found, rfl, -⟩ := patched
  exact Map.keys_put_of_mem (Map.mem_iff_lookup.mpr ⟨old, found⟩) _

/-- A table that has grown has the same rooms. -/
theorem roomsOf_rehash_perm (store : RoomStateStore) (order : Map.Order RoomKey RoomMeta)
    (peerId : PeerId) : ((store.rehash order).roomsOf peerId).Perm (store.roomsOf peerId) :=
  ((order.perm store.rooms.entries).filter _).map _

/-- The empty patch changes nothing. -/
theorem apply_of_isEmpty {room : RoomMeta} {patch : RoomMetaPatch}
    (empty : patch.isEmpty = true) : room.apply patch = room := by
  simp only [RoomMetaPatch.isEmpty, Bool.and_eq_true, Option.isNone_iff_eq_none] at empty
  obtain ⟨⟨⟨⟨⟨⟨⟨model, thinking⟩, session⟩, working⟩, background⟩, branch⟩, percent⟩, max⟩ := empty
  simp [RoomMeta.apply, model, thinking, session, working, background, branch, percent, max]

end RoomStateStore

end OutpostPi.Relay
