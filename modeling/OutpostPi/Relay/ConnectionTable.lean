import OutpostPi.Lib.History
import OutpostPi.Lib.Machine
import OutpostPi.Relay.Connections

/-!
# The connection table over its calls

The table takes `insert`, `remove` and send calls in any order, while the owners of the sockets
take messages out of their mailboxes or drop them. The history records the connections that were
inserted and the removals that were asked for, whether or not they found anything, and `Live`
reads off the history alone which connections are live.

`table_semantics` compares the table and the results of its calls with that history. Identifiers
come from a 64-bit counter that wraps, so they are fresh for `2 ^ 64` insertions and no longer
(`exists_stale_removal_and_shared_id`).
-/

set_option autoImplicit false

namespace OutpostPi.Relay.ConnectionTable

open OutpostPi.Lib ConnectionRegistry

variable {Message : Type}

/-! ## Calls and their history -/

inductive Call (Message : Type)
  | insert (peerId : PeerId) (roomId : RoomId) (deviceId : DeviceId) (tx : Sender Message)
  | remove (peerId : PeerId) (roomId : RoomId) (connId : ConnId)
  | sendToRoom (destPeer : PeerId) (destRoom : RoomId) (msg : Message) (skipConnId : ConnId)
  | sendToPeer (peerId : PeerId) (msg : Message)
  /-- The owner of a socket takes a message out of its mailbox. -/
  | recv (key : RoomKey) (connId : ConnId)
  /-- The owner of a socket drops its mailbox. -/
  | close (key : RoomKey) (connId : ConnId)

inductive Event
  | inserted (key : RoomKey) (deviceId : DeviceId) (connId : ConnId)
  | removed (key : RoomKey) (connId : ConnId)
  deriving DecidableEq

/-- The event inserts this connection. -/
def Event.Inserts (key : RoomKey) (deviceId : DeviceId) (connId : ConnId) (event : Event) : Prop :=
  event = .inserted key deviceId connId

/-- The event supersedes or removes this connection, if it is live. -/
def Event.Ends (key : RoomKey) (deviceId : DeviceId) (connId : ConnId) : Event → Prop
  | .inserted key' deviceId' _ => key' = key ∧ deviceId' = deviceId
  | .removed key' connId' => key' = key ∧ connId' = connId

/-- The identifier that an event gave out. -/
def Event.given : Event → Option ConnId
  | .inserted _ _ connId => some connId
  | .removed _ _ => none

/-- The connection was inserted, and neither superseded nor removed since. -/
def Live (history : List Event) (key : RoomKey) (deviceId : DeviceId) (connId : ConnId) : Prop :=
  Stands (Event.Inserts key deviceId connId) (Event.Ends key deviceId connId) history

/-- A room has a live connection. -/
def RoomLive (history : List Event) (key : RoomKey) : Prop :=
  ∃ deviceId connId, Live history key deviceId connId

/-- A peer has a live connection in some room. -/
def PeerLive (history : List Event) (peerId : PeerId) : Prop :=
  ∃ roomId, RoomLive history (peerId, roomId)

/-- The identifiers given out so far, in order. -/
def given (history : List Event) : List ConnId := history.filterMap Event.given

structure State (Message : Type) where
  registry : ConnectionRegistry Message
  history : List Event

/-- The table before and after one call. -/
def apply (s : State Message) : Call Message → State Message
  | .insert peerId roomId deviceId tx =>
    let (registry, result) := s.registry.insert peerId roomId deviceId tx
    ⟨registry, s.history ++ [.inserted (peerId, roomId) deviceId result.connId]⟩
  | .remove peerId roomId connId =>
    ⟨(s.registry.remove peerId roomId connId).1, s.history ++ [.removed (peerId, roomId) connId]⟩
  | .sendToRoom destPeer destRoom msg skipConnId =>
    { s with registry := (s.registry.sendToRoom destPeer destRoom msg skipConnId).1 }
  | .sendToPeer peerId msg => { s with registry := (s.registry.sendToPeer peerId msg).1 }
  | .recv key connId => { s with registry := s.registry.recv key connId }
  | .close key connId => { s with registry := s.registry.close key connId }

/-- The table from start-up on, where every call is possible at any time. -/
def system : Machine (State Message) (Call Message) where
  Init s := s = ⟨.new, []⟩
  step s call := some (apply s call)

/-! ## What one call does to the entries -/

/-- What identifies an entry. A mailbox and a request to disconnect may change. -/
def ident (entry : ConnectionEntry Message) : DeviceId × ConnId := (entry.deviceId, entry.connId)

/-- The identities of the connections at a key. -/
def idents (registry : ConnectionRegistry Message) (key : RoomKey) : List (DeviceId × ConnId) :=
  (registry.entriesAt key).map ident

variable {msg : Message}

theorem ident_offer {entry : ConnectionEntry Message} {skip : Option ConnId} :
    ident (entry.offer msg skip).1 = ident entry := by
  rw [ConnectionEntry.offer]
  split
  · rfl
  · split <;> rfl

variable {registry : ConnectionRegistry Message} {key : RoomKey}

theorem idents_mapEntries {f : RoomKey → ConnectionEntry Message → ConnectionEntry Message}
    (same : ∀ entry, ident (f key entry) = ident entry) :
    idents (registry.mapEntries f) key = idents registry key := by
  rw [idents, idents, entriesAt_mapEntries, List.map_map]
  exact List.map_congr_left fun entry _ => same entry

variable {destPeer : PeerId} {destRoom : RoomId} {skipConnId : ConnId}

/-- A message to a room is offered to every entry of that key but the skipped one. -/
theorem entriesAt_sendToRoom (key : RoomKey) :
    (registry.sendToRoom destPeer destRoom msg skipConnId).1.entriesAt key =
      (registry.entriesAt key).map fun entry =>
        if key = (destPeer, destRoom) ∧ entry.connId ≠ skipConnId then (entry.offer msg none).1
        else entry := by
  have offered : ∀ entry : ConnectionEntry Message,
      (if key = (destPeer, destRoom) then (entry.offer msg (some skipConnId)).1 else entry) =
        if key = (destPeer, destRoom) ∧ entry.connId ≠ skipConnId then (entry.offer msg none).1
        else entry := by
    intro entry
    by_cases here : key = (destPeer, destRoom)
    · by_cases skipped : entry.connId = skipConnId
      · simp [here, skipped, ConnectionEntry.offer]
      · simp [here, skipped, Ne.symm skipped, ConnectionEntry.offer]
    · simp [here]
  rw [sendToRoom]
  split
  · next absent =>
    -- Without the key there is nothing to offer to.
    by_cases here : key = (destPeer, destRoom)
    · subst here
      simp [entriesAt, absent]
    · simp [here]
  · rw [entriesAt_mapEntries]
    exact List.map_congr_left fun entry _ => offered entry

/-- The report counts the offers to the entries of the room but the skipped one. -/
theorem report_sendToRoom :
    (registry.sendToRoom destPeer destRoom msg skipConnId).2 =
      .total ((registry.entriesAt (destPeer, destRoom)).map fun entry =>
        if entry.connId ≠ skipConnId then (entry.offer msg none).2 else .default) := by
  have offered : ∀ entry : ConnectionEntry Message,
      (entry.offer msg (some skipConnId)).2 =
        if entry.connId ≠ skipConnId then (entry.offer msg none).2 else .default := by
    intro entry
    by_cases skipped : entry.connId = skipConnId
    · simp [skipped, ConnectionEntry.offer]
    · simp [skipped, Ne.symm skipped, ConnectionEntry.offer]
  rw [sendToRoom]
  split
  · next absent => simp [entriesAt, absent, DeliveryReport.total]
  · next entries found =>
    have here : registry.entriesAt (destPeer, destRoom) = entries := by simp [entriesAt, found]
    rw [here, deliver]
    exact congrArg DeliveryReport.total (List.map_congr_left fun entry _ => offered entry)

/-- The identities at a key after one call. -/
theorem idents_apply (s : State Message) (call : Call Message) (key : RoomKey) :
    idents (apply s call).registry key =
      match call with
      | .insert peerId roomId deviceId _ =>
        if key = (peerId, roomId) then
          (idents s.registry key).filter (fun entry => entry.1 != deviceId) ++
            [(deviceId, s.registry.nextConn)]
        else idents s.registry key
      | .remove peerId roomId connId =>
        if key = (peerId, roomId) then (idents s.registry key).filter fun entry => entry.2 != connId
        else idents s.registry key
      | _ => idents s.registry key := by
  -- offers, receipts and closings keep the identity of every entry
  cases call with
  | insert peerId roomId deviceId tx =>
    simp only [apply, idents, entriesAt_insert]
    split
    · rw [List.map_append, List.filter_map]
      rfl
    · rfl
  | remove peerId roomId connId =>
    simp only [apply, idents, entriesAt_remove]
    split
    · rw [List.filter_map]
      rfl
    · rfl
  | sendToRoom destPeer destRoom msg skipConnId =>
    simp only [apply, idents, entriesAt_sendToRoom, List.map_map]
    refine List.map_congr_left ?_
    intro entry _
    rw [Function.comp_apply]
    split
    · exact ident_offer
    · rfl
  | sendToPeer peerId msg =>
    refine idents_mapEntries ?_
    intro entry
    split
    · exact ident_offer
    · rfl
  | recv receiving connId =>
    refine idents_mapEntries ?_
    intro entry
    split <;> rfl
  | close closing connId =>
    refine idents_mapEntries ?_
    intro entry
    split <;> rfl

/-! ## The table against its history -/

/-- The table holds the live connections of its history, each device at most once for a key, and
the counter has counted the insertions. -/
structure Agrees (s : State Message) : Prop where
  live : ∀ key deviceId connId,
    (deviceId, connId) ∈ idents s.registry key ↔ Live s.history key deviceId connId
  devices : ∀ key, ((idents s.registry key).map Prod.fst).Nodup
  counted : given s.history = (List.range (given s.history).length).map UInt64.ofNat
  next : s.registry.nextConn = UInt64.ofNat (given s.history).length

theorem agrees_new : Agrees (⟨.new, []⟩ : State Message) := by
  constructor
  case live =>
    intro key deviceId connId
    simp [idents, entriesAt, ConnectionRegistry.new, Live, not_stands_nil]
  case devices =>
    intro key
    simp [idents, entriesAt, ConnectionRegistry.new]
  case counted => rfl
  case next => rfl

variable {connId : ConnId}

theorem nextConn_remove {peerId : PeerId} {roomId : RoomId} :
    (registry.remove peerId roomId connId).1.nextConn = registry.nextConn := by
  rw [remove]
  dsimp only
  split
  · rfl
  · split <;> rfl

theorem nextConn_sendToRoom :
    (registry.sendToRoom destPeer destRoom msg skipConnId).1.nextConn = registry.nextConn := by
  rw [sendToRoom]
  split <;> rfl

theorem agrees_apply {s : State Message} (agrees : Agrees s) (call : Call Message) :
    Agrees (apply s call) := by
  have changed := idents_apply s call
  cases call with
  | insert peerId roomId deviceId tx =>
    -- a new connection takes the next id, and the history says so
    have history : (apply s (.insert peerId roomId deviceId tx)).history =
        s.history ++ [.inserted (peerId, roomId) deviceId s.registry.nextConn] := rfl
    have count : given (apply s (.insert peerId roomId deviceId tx)).history =
        given s.history ++ [s.registry.nextConn] := by
      rw [history, given, List.filterMap_append]
      rfl
    constructor
    case live =>
      intro key deviceId' connId'
      rw [changed, history, Live, stands_concat, ← Live, ← agrees.live]
      simp only [Event.Inserts, Event.Ends, Event.inserted.injEq]
      by_cases here : key = (peerId, roomId)
      · by_cases device : deviceId' = deviceId
        · simp [here, device, eq_comm]
        · simp [here, device, Ne.symm device]
      · simp [here, Ne.symm here]
    -- a device has one connection in a room: the earlier one goes as the new one comes
    case devices =>
      intro key
      rw [changed]
      dsimp only
      split
      · rw [List.map_append, List.map_singleton]
        refine ((agrees.devices key).sublist (List.filter_sublist.map _)).append
          (List.nodup_singleton deviceId) ?_
        intro device before now
        obtain ⟨entry, mem, rfl⟩ := List.mem_map.mp before
        have differs : entry.1 ≠ deviceId := by simpa using (List.mem_filter.mp mem).2
        exact differs (List.mem_singleton.mp now)
      · exact agrees.devices key
    case counted =>
      rw [count, List.length_append, List.length_singleton, List.range_succ, List.map_append,
        List.map_singleton, ← agrees.counted, agrees.next]
    case next =>
      rw [count, List.length_append, List.length_singleton]
      change s.registry.nextConn + 1 = _
      rw [agrees.next, UInt64.ofNat_add]
      rfl
  | remove peerId roomId connId =>
    -- a removal gives out no id
    have history : (apply s (.remove peerId roomId connId)).history =
        s.history ++ [.removed (peerId, roomId) connId] := rfl
    have count : given (apply s (.remove peerId roomId connId)).history = given s.history := by
      rw [history, given, List.filterMap_append]
      exact List.append_nil _
    constructor
    case live =>
      intro key deviceId' connId'
      rw [changed, history, Live, stands_concat, ← Live, ← agrees.live]
      simp only [Event.Inserts, Event.Ends, reduceCtorEq, false_or]
      by_cases here : key = (peerId, roomId)
      · simp [here, eq_comm (a := connId)]
      · simp [here, Ne.symm here]
    case devices =>
      intro key
      rw [changed]
      dsimp only
      split
      · exact (agrees.devices key).sublist (List.filter_sublist.map _)
      · exact agrees.devices key
    case counted =>
      rw [count]
      exact agrees.counted
    case next =>
      rw [count, ← agrees.next]
      exact nextConn_remove
  -- frames that are sent, received or refused change no identity
  | sendToRoom destPeer destRoom msg skipConnId =>
    exact ⟨fun key => by rw [changed]; exact agrees.live key,
      fun key => by rw [changed]; exact agrees.devices key, agrees.counted,
      nextConn_sendToRoom.trans agrees.next⟩
  | sendToPeer peerId msg =>
    exact ⟨fun key => by rw [changed]; exact agrees.live key,
      fun key => by rw [changed]; exact agrees.devices key, agrees.counted, agrees.next⟩
  | recv key connId =>
    exact ⟨fun key => by rw [changed]; exact agrees.live key,
      fun key => by rw [changed]; exact agrees.devices key, agrees.counted, agrees.next⟩
  | close key connId =>
    exact ⟨fun key => by rw [changed]; exact agrees.live key,
      fun key => by rw [changed]; exact agrees.devices key, agrees.counted, agrees.next⟩

theorem reachable_apply {s : State Message} (reached : system.Reachable s) (call : Call Message) :
    system.Reachable (apply s call) := by
  obtain ⟨start, initial, run⟩ := reached
  exact ⟨start, initial, run.tail trivial rfl⟩

theorem agrees_of_reachable {s : State Message} (reached : system.Reachable s) : Agrees s := by
  refine reached.invariant ?_ ?_
  · rintro s rfl
    exact agrees_new
  · intro s call s' agrees _ taken
    obtain rfl : apply s call = s' := Option.some.inj taken
    exact agrees_apply agrees call

/-! ## Identifiers -/

/-- The counter gives every identifier once before it wraps. -/
theorem nodup_given {s : State Message} (agrees : Agrees s)
    (fresh : (given s.history).length ≤ 2 ^ 64) : (given s.history).Nodup := by
  rw [agrees.counted]
  refine List.nodup_range.map_on ?_
  intro i below j below' same
  have atMost : ∀ k ∈ List.range (given s.history).length, k % 2 ^ 64 = k := by
    intro k mem
    exact Nat.mod_eq_of_lt (Nat.lt_of_lt_of_le (List.mem_range.mp mem) fresh)
  have values := congrArg UInt64.toNat same
  rwa [UInt64.toNat_ofNat', UInt64.toNat_ofNat', atMost i below, atMost j below'] at values

variable {deviceId : DeviceId}

/-- A live connection was inserted, so it is the only one that was given its identifier. -/
theorem eq_of_live {history : List Event} (once : (given history).Nodup) {key' : RoomKey}
    {deviceId' : DeviceId} (live : Live history key deviceId connId)
    (inserted : Event.inserted key' deviceId' connId ∈ history) :
    key = key' ∧ deviceId = deviceId' := by
  obtain ⟨event, mem, rfl⟩ := live.exists_mem
  have same := eq_of_nodup_filterMap once mem inserted rfl rfl
  cases same
  exact ⟨rfl, rfl⟩

/-- An identifier that was superseded or removed is not in the table. -/
theorem not_live_of_ended {before after : List Event} {event : Event}
    (once : (given (before ++ event :: after)).Nodup)
    (inserted : .inserted key deviceId connId ∈ before) (ends : event.Ends key deviceId connId)
    (key' : RoomKey) (deviceId' : DeviceId) :
    ¬ Live (before ++ event :: after) key' deviceId' connId := by
  intro live
  obtain ⟨rfl, rfl⟩ := eq_of_live once live (List.mem_append_left _ inserted)
  refine not_stands_of_ended ends ?_ live
  rintro later mem rfl
  -- The identifier would have been given before the end and again after it.
  rw [given, List.filterMap_append] at once
  exact (List.disjoint_of_nodup_append once)
    (List.mem_filterMap.mpr ⟨_, inserted, rfl⟩) (List.mem_filterMap.mpr ⟨_, mem, rfl⟩)

/-! ## Semantics -/

/-- The flags of an insertion tell whether the peer and the room had a live connection before. -/
def InsertFlags (s : State Message) : Prop :=
  ∀ peerId roomId deviceId tx,
    ((s.registry.insert peerId roomId deviceId tx).2.wasOfflineBefore = true ↔
        ¬ PeerLive s.history peerId) ∧
      ((s.registry.insert peerId roomId deviceId tx).2.isFirstInRoom = true ↔
        ¬ RoomLive s.history (peerId, roomId))

/-- The flags of a removal tell whether it ended a live connection, and whether the room and the
peer have none after that. -/
def RemoveFlags (s : State Message) : Prop :=
  ∀ peerId roomId connId,
    ((s.registry.remove peerId roomId connId).2.removedConnection = true ↔
        ∃ deviceId, Live s.history (peerId, roomId) deviceId connId) ∧
      ((s.registry.remove peerId roomId connId).2.roomEmptied = true ↔
        (∃ deviceId, Live s.history (peerId, roomId) deviceId connId) ∧
          ¬ RoomLive (apply s (.remove peerId roomId connId)).history (peerId, roomId)) ∧
      ((s.registry.remove peerId roomId connId).2.peerOfflined = true ↔
        (∃ deviceId, Live s.history (peerId, roomId) deviceId connId) ∧
          ¬ PeerLive (apply s (.remove peerId roomId connId)).history peerId)

/-- A message to a room is offered to the entries of its key but the skipped one, and touches no
other entry. -/
def OffersToRoom (s : State Message) : Prop :=
  ∀ destPeer destRoom msg skipConnId,
    (∀ key, (s.registry.sendToRoom destPeer destRoom msg skipConnId).1.entriesAt key =
      (s.registry.entriesAt key).map fun entry =>
        if key = (destPeer, destRoom) ∧ entry.connId ≠ skipConnId then (entry.offer msg none).1
        else entry) ∧
    (s.registry.sendToRoom destPeer destRoom msg skipConnId).2 =
      .total ((s.registry.entriesAt (destPeer, destRoom)).map fun entry =>
        if entry.connId ≠ skipConnId then (entry.offer msg none).2 else .default)

/-- No identifier is given twice or held by two entries, and none is held by an entry after its
connection was superseded or removed. -/
def Distinct (s : State Message) : Prop :=
  (given s.history).Nodup ∧
    (∀ key, ((s.registry.entriesAt key).map ConnectionEntry.connId).Nodup) ∧
    (∀ key key' entry entry', entry ∈ s.registry.entriesAt key →
      entry' ∈ s.registry.entriesAt key' → entry.connId = entry'.connId → key = key') ∧
    ∀ before event after key deviceId connId, s.history = before ++ event :: after →
      Event.inserted key deviceId connId ∈ before → event.Ends key deviceId connId →
      ∀ key', ∀ entry ∈ s.registry.entriesAt key', entry.connId ≠ connId

section Agreement

variable {s : State Message}

theorem mem_entriesAt_iff (agrees : Agrees s) :
    (∃ entry ∈ s.registry.entriesAt key, entry.deviceId = deviceId ∧ entry.connId = connId) ↔
      Live s.history key deviceId connId := by
  rw [← agrees.live, idents, List.mem_map]
  simp [ident]

theorem roomLive_iff (agrees : Agrees s) : RoomLive s.history key ↔ s.registry.Live key := by
  simp only [RoomLive, ← agrees.live]
  constructor
  · rintro ⟨deviceId, connId, mem⟩
    obtain ⟨entry, here, -⟩ := List.mem_map.mp mem
    exact List.ne_nil_of_mem here
  · intro live
    obtain ⟨entry, here⟩ := List.exists_mem_of_ne_nil _ live
    exact ⟨entry.deviceId, entry.connId, List.mem_map.mpr ⟨entry, here, rfl⟩⟩

theorem peerLive_iff (agrees : Agrees s) {peerId : PeerId} :
    PeerLive s.history peerId ↔ s.registry.isOnline peerId = true := by
  simp only [PeerLive, roomLive_iff agrees, isOnline_iff_live]

theorem insertFlags (agrees : Agrees s) : InsertFlags s := by
  intro peerId roomId deviceId tx
  refine ⟨?_, ?_⟩
  · rw [wasOfflineBefore_insert, peerLive_iff agrees, Bool.not_eq_true', Bool.not_eq_true]
  · rw [isFirstInRoom_insert, roomLive_iff agrees]

/-- A removal reports a connection exactly when its identifier was in the room. -/
theorem removedConnection_iff (registry : ConnectionRegistry Message) (peerId : PeerId)
    (roomId : RoomId) (connId : ConnId) :
    (registry.remove peerId roomId connId).2.removedConnection = true ↔
      ∃ entry ∈ registry.entriesAt (peerId, roomId), entry.connId = connId := by
  cases found : registry.senders.lookup (peerId, roomId) with
  | none => simp [remove, entriesAt, found]
  | some entries =>
    have here : registry.entriesAt (peerId, roomId) = entries := by simp [entriesAt, found]
    have reported : (registry.remove peerId roomId connId).2.removedConnection =
        ((entries.filter fun entry => entry.connId != connId).length != entries.length) := by
      rw [remove]
      simp only [found]
      split <;> rfl
    rw [reported, here, bne_iff_ne, ne_eq, List.length_filter_eq_length_iff]
    simp

theorem removeFlags (agrees : Agrees s) : RemoveFlags s := by
  intro peerId roomId connId
  have agrees' := agrees_apply agrees (.remove peerId roomId connId)
  have ended : (s.registry.remove peerId roomId connId).2.removedConnection = true ↔
      ∃ deviceId, Live s.history (peerId, roomId) deviceId connId := by
    rw [removedConnection_iff]
    simp only [← mem_entriesAt_iff agrees]
    constructor
    · rintro ⟨entry, here, same⟩
      exact ⟨entry.deviceId, entry, here, rfl, same⟩
    · rintro ⟨deviceId, entry, here, -, same⟩
      exact ⟨entry, here, same⟩
  refine ⟨ended, ?_, ?_⟩
  all_goals rw [← ended]
  · rw [roomLive_iff agrees']
    change _ ↔ _ ∧ ¬ (s.registry.remove peerId roomId connId).1.Live (peerId, roomId)
    rcases remove_cases s.registry peerId roomId connId with
      ⟨emptied, removed, -, after, -⟩ | ⟨spared, -, after⟩
    · simp [emptied, removed, after]
    · -- A room that is not emptied was not live, or is live still.
      rw [spared, after]
      simp only [Bool.false_eq_true, false_iff, not_and, not_not]
      intro removed
      rw [removedConnection_iff] at removed
      obtain ⟨entry, here, -⟩ := removed
      exact List.ne_nil_of_mem here
  · rw [peerLive_iff agrees']
    change _ ↔ _ ∧ ¬ (s.registry.remove peerId roomId connId).1.isOnline peerId = true
    rcases remove_cases s.registry peerId roomId connId with
      ⟨-, removed, -, -, offlined⟩ | ⟨-, spared, after⟩
    · rw [offlined, removed]
      simp
    · rw [spared, isOnline_congr fun room => after (peerId, room)]
      simp only [Bool.false_eq_true, false_iff, not_and, not_not]
      intro removed
      rw [removedConnection_iff] at removed
      obtain ⟨entry, here, -⟩ := removed
      exact isOnline_iff_live.mpr ⟨roomId, List.ne_nil_of_mem here⟩

theorem distinct (agrees : Agrees s) (fresh : (given s.history).length ≤ 2 ^ 64) :
    Distinct s := by
  have once := nodup_given agrees fresh
  have live : ∀ {key : RoomKey} {entry : ConnectionEntry Message},
      entry ∈ s.registry.entriesAt key → Live s.history key entry.deviceId entry.connId := by
    intro key entry here
    exact (mem_entriesAt_iff agrees).mp ⟨entry, here, rfl, rfl⟩
  have inserted : ∀ {key : RoomKey} {entry : ConnectionEntry Message},
      entry ∈ s.registry.entriesAt key →
        Event.inserted key entry.deviceId entry.connId ∈ s.history := by
    intro key entry here
    obtain ⟨event, mem, rfl⟩ := (live here).exists_mem
    exact mem
  refine ⟨once, ?_, ?_, ?_⟩
  · intro key
    have devices := agrees.devices key
    rw [idents, List.map_map] at devices
    -- Entries of one key with one identifier have one device, of which the key holds one.
    refine (List.Nodup.of_map _ devices).map_on ?_
    intro entry here entry' here' same
    have device := (eq_of_live once (live here) (same ▸ inserted here')).2
    exact List.inj_on_of_nodup_map devices here here' device
  · intro key key' entry entry' here here' same
    exact (eq_of_live once (live here) (same ▸ inserted here')).1
  · intro before event after key deviceId connId split given ends key' entry here
    rintro rfl
    have alive := live here
    rw [split] at alive once
    exact not_live_of_ended once given ends key' entry.deviceId alive

end Agreement

/-- In every state that calls can reach, no key has an empty list, a key has each device at most
once, and the entries are the live connections of the history. The flags of an insertion and of a
removal and the offers of a send are exact, and identifiers are distinct and fresh for `2 ^ 64`
insertions. -/
theorem table_semantics {s : State Message} (reached : system.Reachable s) :
    (∀ key entries, s.registry.senders.lookup key = some entries → entries ≠ []) ∧
    (∀ key, ((s.registry.entriesAt key).map ConnectionEntry.deviceId).Nodup) ∧
    (∀ key deviceId connId,
      (∃ entry ∈ s.registry.entriesAt key, entry.deviceId = deviceId ∧ entry.connId = connId) ↔
        Live s.history key deviceId connId) ∧
    InsertFlags s ∧ RemoveFlags s ∧ OffersToRoom s ∧
    ((given s.history).length ≤ 2 ^ 64 → Distinct s) := by
  have agrees := agrees_of_reachable reached
  refine ⟨s.registry.nonempty, ?_, fun key deviceId connId => mem_entriesAt_iff agrees,
    insertFlags agrees, removeFlags agrees, ?_, distinct agrees⟩
  · intro key
    have devices := agrees.devices key
    rwa [idents, List.map_map] at devices
  · intro destPeer destRoom msg skipConnId
    exact ⟨entriesAt_sendToRoom, report_sendToRoom⟩

/-- A phone joins a laptop and reconnects, and its first connection is removed once more. -/
theorem table_semantics_reconnect :
    ∃ s : State String,
      s.history = [.inserted ("pi", "main") "laptop" 0, .inserted ("pi", "main") "phone" 1,
        .inserted ("pi", "main") "phone" 2, .removed ("pi", "main") 1] ∧
      InsertFlags s ∧ RemoveFlags s ∧ OffersToRoom s ∧ Distinct s := by
  let schedule : List (Call String) :=
    [.insert "pi" "main" "laptop" (.channel 4), .insert "pi" "main" "phone" (.channel 4),
      .insert "pi" "main" "phone" (.channel 4), .remove "pi" "main" 1]
  obtain ⟨s, executed⟩ : ∃ s, system.exec ⟨.new, []⟩ schedule = some s := ⟨_, rfl⟩
  have history : s.history = [.inserted ("pi", "main") "laptop" 0,
      .inserted ("pi", "main") "phone" 1, .inserted ("pi", "main") "phone" 2,
      .removed ("pi", "main") 1] := by
    cases executed
    rfl
  obtain ⟨-, -, -, inserts, removes, offers, fresh⟩ :=
    table_semantics (Machine.reachable_of_exec rfl executed)
  refine ⟨s, history, inserts, removes, offers, fresh ?_⟩
  rw [history]
  decide

/-! ## What the table does not promise -/

/-- After `n + 1` insertions of one device beside another one. -/
private theorem exists_replaced (n : Nat) :
    ∃ s : State String, system.Reachable s ∧
      idents s.registry ("pi", "main") = [("phone", 0), ("laptop", UInt64.ofNat (n + 1))] ∧
      s.registry.nextConn = UInt64.ofNat (n + 2) := by
  induction n with
  | zero =>
    let schedule : List (Call String) :=
      [.insert "pi" "main" "phone" (.channel 4), .insert "pi" "main" "laptop" (.channel 4)]
    obtain ⟨s, executed⟩ : ∃ s, system.exec ⟨.new, []⟩ schedule = some s := ⟨_, rfl⟩
    refine ⟨s, Machine.reachable_of_exec rfl executed, ?_⟩
    cases executed
    exact ⟨rfl, rfl⟩
  | succ n ih =>
    obtain ⟨s, reached, held, next⟩ := ih
    refine ⟨apply s (.insert "pi" "main" "laptop" (.channel 4)), reachable_apply reached _, ?_, ?_⟩
    · rw [idents_apply, held, next]
      rfl
    · change s.registry.nextConn + 1 = _
      rw [next, UInt64.ofNat_add (n + 2) 1]
      rfl

/-- A removal that finds nothing reports neither an emptied room nor an offline peer, though
both have no live connection, and after `2 ^ 64` insertions two live entries share an
identifier. -/
theorem exists_stale_removal_and_shared_id :
    (∃ s : State String, system.Reachable s ∧ ∃ peerId roomId connId,
      ¬ RoomLive (apply s (.remove peerId roomId connId)).history (peerId, roomId) ∧
      (s.registry.remove peerId roomId connId).2.roomEmptied = false ∧
      ¬ PeerLive (apply s (.remove peerId roomId connId)).history peerId ∧
      (s.registry.remove peerId roomId connId).2.peerOfflined = false) ∧
    ∃ s : State String, system.Reachable s ∧ ∃ key,
      ¬ ((s.registry.entriesAt key).map ConnectionEntry.connId).Nodup := by
  refine ⟨⟨⟨.new, []⟩, ⟨_, rfl, Machine.RunsTo.refl _⟩, "pi", "main", 0, ?_⟩, ?_⟩
  · have start : Agrees (⟨.new, []⟩ : State String) := agrees_new
    have agrees := agrees_apply start (.remove "pi" "main" 0)
    rw [roomLive_iff agrees, peerLive_iff agrees]
    exact ⟨by decide, rfl, by decide, rfl⟩
  · obtain ⟨s, reached, held, next⟩ := exists_replaced (2 ^ 64 - 2)
    refine ⟨apply s (.insert "pi" "main" "tablet" (.channel 4)), reachable_apply reached _,
      ("pi", "main"), ?_⟩
    have shared : idents (apply s (.insert "pi" "main" "tablet" (.channel 4))).registry
        ("pi", "main") = [("phone", 0), ("laptop", UInt64.ofNat (2 ^ 64 - 1)), ("tablet", 0)] := by
      rw [idents_apply]
      simp [held, next]
    have ids := congrArg (List.map Prod.snd) shared
    rw [idents, List.map_map] at ids
    intro distinct
    have same : (([("phone", 0), ("laptop", UInt64.ofNat (2 ^ 64 - 1)), ("tablet", 0)] :
        List (DeviceId × ConnId)).map Prod.snd).Nodup := ids ▸ distinct
    simp at same

end OutpostPi.Relay.ConnectionTable
