import OutpostPi.Lib.Base64
import OutpostPi.Relay.MeshStore
import OutpostPi.Relay.Rooms
import OutpostPi.Relay.Subscriptions

/-!
# Room subscriptions and room checks of a connection

The relay answers a `rooms_check` with one `rooms` frame for each peer, and drops an answer whose
text is the last one that this connection was sent about the peer (`RoomsDedupCache`). A control
frame with too many peers or a peer id that is not canonical is dropped, and so is a check beyond
the budget of the connection. `subscribeRooms` replaces the subscriptions of the whole key.

Which peer ids are canonical and how a frame is serialised are parameters. For the relay they are
the encodings of the keys that Ed25519 accepts (`isCanonicalPeerId`).
-/

set_option autoImplicit false

namespace OutpostPi.Relay

open OutpostPi.Lib

/-! ## Limits -/

/-- Maximum peer ids accepted in one presence or rooms control frame. -/
def maxControlFramePeers : Nat := 64

/-- Maximum peer cost accepted per connection and window. -/
def maxControlCheckPeerCostPerWindow : Nat := maxControlFramePeers * 4

/-- Admission window for the peer cost of checks, in nanoseconds. -/
def controlCheckPeerCostWindow : Nat := 60 * 10 ^ 9

/-- How many answers a connection remembers. -/
def roomsDedupCacheMaxEntries : Nat := maxControlFramePeers

/-- How large the remembered answers may be. -/
def roomsDedupCacheMaxBytes : Nat := 256 * 1024

/-- A check is charged for each peer that it asks about, and for one at least. -/
def controlCheckCost (peers : List PeerId) : Nat := max peers.length 1

/-! ## Peer lists -/

/-- Whether a peer id is the canonical base64 encoding of a public key. -/
def isCanonicalPeerId (isVerifyingKey : List UInt8 → Bool) (peerId : PeerId) : Bool :=
  (Base64.decodeCanonical peerId 32).any isVerifyingKey

/-- Why a list of peers is refused. -/
inductive ControlFrameError
  | tooManyPeers (frameType : String) (requested limit : Nat)
  | invalidPeerId (frameType : String) (index : Nat)
  deriving DecidableEq

/-- A list of peers is taken as it is, unless it is too long or has an id that is not canonical. -/
def boundedPeerList (canonical : PeerId → Bool) (frameType : String) (peers : List PeerId) :
    Except ControlFrameError (List PeerId) :=
  if maxControlFramePeers < peers.length then
    .error (.tooManyPeers frameType peers.length maxControlFramePeers)
  else
    match peers.findIdx? fun peer => !canonical peer with
    | some index => .error (.invalidPeerId frameType index)
    | none => .ok peers

theorem boundedPeerList_singleton (canonical : PeerId → Bool) (frameType : String)
    (peer : PeerId) :
    boundedPeerList canonical frameType [peer] =
      if canonical peer then .ok [peer] else .error (.invalidPeerId frameType 0) := by
  cases isCanonical : canonical peer <;>
    simp [boundedPeerList, maxControlFramePeers, List.findIdx?_cons, isCanonical]

/-! ## Deduplication of answers -/

/-- A remembered answer. -/
structure CachedRoomsResponse where
  response : String
  lastUsed : Nat
  deriving DecidableEq

/-- The last answer about each peer, bounded in entries and in bytes. -/
structure RoomsDedupCache where
  entries : Map PeerId CachedRoomsResponse
  retainedBytes : Nat
  clock : Nat

namespace RoomsDedupCache

/-- No answer is remembered. -/
def empty : RoomsDedupCache := ⟨∅, 0, 0⟩

/-- The clock is a 64-bit counter that saturates. -/
def tick (cache : RoomsDedupCache) : Nat := min (cache.clock + 1) (2 ^ 64 - 1)

/-- The answer about a peer that the cache retains. -/
def remembered (cache : RoomsDedupCache) (peerId : PeerId) : Option String :=
  (cache.entries.lookup peerId).map CachedRoomsResponse.response

/-- Whether an answer is the retained one, which then counts as used. -/
def isUnchanged (cache : RoomsDedupCache) (peerId : PeerId) (response : String) :
    RoomsDedupCache × Bool :=
  match cache.entries.lookup peerId with
  | none => (cache, false)
  | some entry =>
    if entry.response ≠ response then (cache, false)
    else
      ({ cache with
          entries := cache.entries.insert peerId { entry with lastUsed := cache.tick }
          clock := cache.tick }, true)

/-- Forget the answer about a peer. -/
def remove (cache : RoomsDedupCache) (peerId : PeerId) : RoomsDedupCache :=
  match cache.entries.lookup peerId with
  | none => cache
  | some previous =>
    { cache with
      entries := cache.entries.erase peerId
      retainedBytes :=
        cache.retainedBytes - (peerId.utf8ByteSize + previous.response.utf8ByteSize) }

/-- The peer whose answer was used least recently. -/
def oldestPeer (cache : RoomsDedupCache) : Option PeerId :=
  (cache.entries.entries.argmin fun slot => slot.2.lastUsed).map Sigma.fst

/-- Evict until an entry of some bytes fits. Each round evicts one of the entries, of which the
first argument counts those at the beginning. -/
def makeRoom : Nat → RoomsDedupCache → Nat → RoomsDedupCache
  | 0, cache, _ => cache
  | rounds + 1, cache, entryBytes =>
    if roomsDedupCacheMaxEntries ≤ cache.entries.size ∨
        roomsDedupCacheMaxBytes < cache.retainedBytes + entryBytes then
      match cache.oldestPeer with
      | none => cache
      | some oldest => makeRoom rounds (cache.remove oldest) entryBytes
    else cache

/-- Remember an answer, and forget the ones used least recently to make place for it. -/
def remember (cache : RoomsDedupCache) (peerId : PeerId) (response : String) : RoomsDedupCache :=
  let dropped := cache.remove peerId
  let entryBytes := peerId.utf8ByteSize + response.utf8ByteSize
  if roomsDedupCacheMaxBytes < entryBytes then dropped
  else
    let fitting := makeRoom dropped.entries.size dropped entryBytes
    { entries := fitting.entries.insert peerId ⟨response, fitting.tick⟩
      retainedBytes := fitting.retainedBytes + entryBytes
      clock := fitting.tick }

theorem isUnchanged_iff {cache : RoomsDedupCache} {peerId : PeerId} {response : String} :
    (cache.isUnchanged peerId response).2 = true ↔ cache.remembered peerId = some response := by
  rw [isUnchanged, remembered]
  cases cache.entries.lookup peerId with
  | none => simp
  | some entry =>
    by_cases same : entry.response = response <;> simp [same]

end RoomsDedupCache

/-! ## Handlers -/

/-- The snapshot of the rooms of a peer, as it is sent. -/
structure RoomsFrame where
  peer : PeerId
  rooms : List RoomMeta
  deriving DecidableEq

/-- What one connection remembers between its control frames. -/
structure ConnectionActor where
  peerId : PeerId
  lastRoomsResp : RoomsDedupCache
  controlCheckLimiter : FixedWindowBudget

namespace ConnectionActor

/-- A connection that has just been made. -/
def new (peerId : PeerId) (now : Nat) : ConnectionActor :=
  ⟨peerId, .empty, .new controlCheckPeerCostWindow maxControlCheckPeerCostPerWindow now⟩

/-- Charge a check to the budget of the connection. -/
def allowControlCheck (actor : ConnectionActor) (now : Nat) (peers : List PeerId) :
    ConnectionActor × Bool :=
  let (allowed, limiter) := actor.controlCheckLimiter.allow (controlCheckCost peers) now
  ({ actor with controlCheckLimiter := limiter }, allowed)

section Handlers

variable (canonical : PeerId → Bool) (serialize : RoomsFrame → String)

/-- The answer about one peer, unless the connection has just had it. -/
def emitRoomSnapshot (actor : ConnectionActor) (store : RoomStateStore) (targetPeer : PeerId) :
    ConnectionActor × List RoomsFrame :=
  let frame : RoomsFrame := ⟨targetPeer, store.roomsOf targetPeer⟩
  let resp := serialize frame
  let (cache, unchanged) := actor.lastRoomsResp.isUnchanged targetPeer resp
  if unchanged then ({ actor with lastRoomsResp := cache }, [])
  else ({ actor with lastRoomsResp := cache.remember targetPeer resp }, [frame])

/-- Answer a check peer by peer. -/
def emitDedupedRoomSnapshots (actor : ConnectionActor) (store : RoomStateStore) :
    List PeerId → ConnectionActor × List RoomsFrame
  | [] => (actor, [])
  | targetPeer :: peers =>
    let (next, messages) := actor.emitRoomSnapshot serialize store targetPeer
    let (last, others) := next.emitDedupedRoomSnapshots store peers
    (last, messages ++ others)

/-- Serve a check. -/
def roomsCheck (actor : ConnectionActor) (store : RoomStateStore) (now : Nat)
    (peers : List PeerId) : ConnectionActor × List RoomsFrame :=
  match boundedPeerList canonical "rooms_check" peers with
  | .error _ => (actor, [])
  | .ok peers =>
    let (admitted, allowed) := actor.allowControlCheck now peers
    if allowed then admitted.emitDedupedRoomSnapshots serialize store peers else (admitted, [])

/-- Subscribing replaces what the key of the connection watches. -/
def subscribeRooms (actor : ConnectionActor) (manager : RoomManager) (peers : List PeerId) :
    RoomManager :=
  match boundedPeerList canonical "subscribe_rooms" peers with
  | .error _ => manager
  | .ok peers => ⟨manager.subscriptions.replace actor.peerId peers⟩

/-- A check of one peer is answered. -/
def Answers (actor : ConnectionActor) (store : RoomStateStore) (now : Nat) (peer : PeerId) : Prop :=
  canonical peer = true ∧ (actor.allowControlCheck now [peer]).2 = true ∧
    actor.lastRoomsResp.remembered peer ≠ some (serialize ⟨peer, store.roomsOf peer⟩)

instance (actor : ConnectionActor) (store : RoomStateStore) (now : Nat) (peer : PeerId) :
    Decidable (actor.Answers canonical serialize store now peer) :=
  inferInstanceAs (Decidable (_ ∧ _ ∧ _))

theorem messages_emitRoomSnapshot (actor : ConnectionActor) (store : RoomStateStore)
    (targetPeer : PeerId) :
    (actor.emitRoomSnapshot serialize store targetPeer).2 =
      if actor.lastRoomsResp.remembered targetPeer =
          some (serialize ⟨targetPeer, store.roomsOf targetPeer⟩) then []
      else [⟨targetPeer, store.roomsOf targetPeer⟩] := by
  simp only [emitRoomSnapshot, ← RoomsDedupCache.isUnchanged_iff]
  cases (actor.lastRoomsResp.isUnchanged targetPeer
    (serialize ⟨targetPeer, store.roomsOf targetPeer⟩)).2 <;> rfl

/-- The answer to a check of one peer is its snapshot, or nothing. -/
theorem roomsCheck_singleton (actor : ConnectionActor) (store : RoomStateStore) (now : Nat)
    (peer : PeerId) :
    (actor.roomsCheck canonical serialize store now [peer]).2 =
      if actor.Answers canonical serialize store now peer then
        [⟨peer, store.roomsOf peer⟩]
      else [] := by
  rw [roomsCheck, boundedPeerList_singleton]
  by_cases isCanonical : canonical peer = true
  · rw [if_pos isCanonical]
    dsimp only
    by_cases allowed : (actor.allowControlCheck now [peer]).2 = true
    · rw [if_pos allowed]
      have emitted : ((actor.allowControlCheck now [peer]).1.emitDedupedRoomSnapshots serialize
          store [peer]).2 =
          ((actor.allowControlCheck now [peer]).1.emitRoomSnapshot serialize store peer).2 :=
        List.append_nil _
      rw [emitted, messages_emitRoomSnapshot]
      simp only [allowControlCheck] at allowed
      simp only [allowControlCheck, Answers, isCanonical, allowed, true_and, ne_eq, ite_not]
    · rw [if_neg allowed, if_neg fun answers => allowed answers.2.1]
  · rw [if_neg isCanonical, if_neg fun answers => isCanonical answers.1]

end Handlers

end ConnectionActor

end OutpostPi.Relay
