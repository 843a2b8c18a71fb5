import OutpostPi.Lib.Feed
import OutpostPi.Relay.Observer

/-!
# Agreement of the events a subscriber receives with the relay's state

The relay changes its tables in one operation and reports the change to subscribers in later
ones, with no lock across the two. An `Observer` is one connection of a subscriber; what it has
been sent is the history of its mailbox. The reports about a peer's presence and about one of
its rooms are two feeds over that history, `presenceFeed` and `roomFeed`.

A report may reach the mailbox after the state it reports has been left again. This is harmless
while the call that left it has still to report the newer state, and `Timely` admits exactly
those reports. For rooms, `Refreshed` also excludes a registration that puts a snapshot back
without announcing it to an observer who was last told that the room ended.

Under these conditions the last report agrees with the state whenever no call is in progress
(`last_events_agree`); without them it may not (`exists_idle_online_reported_offline`).
-/

set_option autoImplicit false

namespace OutpostPi.Relay.EventConvergence

open OutpostPi.Lib

/-- What a frame says about the presence of a peer. -/
def presenceStatus (peerId : PeerId) : ServerFrame → Option Bool
  | .peerOnline peer => if peer = peerId then some true else none
  | .peerOffline peer _ => if peer = peerId then some false else none
  | _ => none

/-- What a frame says about the life of a room. -/
def roomStatus (key : RoomKey) : ServerFrame → Option Bool
  | .roomAnnounced peer room => if (peer, room.roomId) = key then some true else none
  | .roomEnded peer roomId _ => if (peer, roomId) = key then some false else none
  | _ => none

/-- The reports that an observer received after its first `since` frames. -/
def reports (o : Observer) (status : ServerFrame → Option Bool) (since : Nat)
    (services : Services) : List Bool :=
  ((o.frames services).drop since).filterMap status

/-! ## The two feeds -/

/-- Presence of a peer as reported to an observer subscribed to it. -/
def presenceFeed (o : Observer) (peerId : PeerId) (since : Nat) : Feed Services Op Bool where
  value services := services.connections.isOnline peerId
  log := reports o (presenceStatus peerId) since
  Owes b
    | .presenceSubscribers peer frame => peer = peerId ∧ presenceStatus peerId frame = some b
    | .publishToSubscribers subscribers frame =>
      o.peer ∈ subscribers ∧ presenceStatus peerId frame = some b
    | .backfillSend subscriber peer =>
      subscriber = o.peer ∧ presenceStatus peerId (.peerOnline peer) = some b
    | _ => False

/-- Life of a room as reported to an observer subscribed to its peer. -/
def roomFeed (o : Observer) (key : RoomKey) (since : Nat) : Feed Services Op Bool where
  value services := decide (services.roomState.Holds key)
  log := reports o (roomStatus key) since
  Owes b
    | .onConnectionInserted peer room insert =>
      (peer, room.roomId) = key ∧ insert.isFirstInRoom = true ∧ b = true
    | .onConnectionRemoved peer roomId remove _ =>
      (peer, roomId) = key ∧ remove.roomEmptied = true ∧ b = false
    | .roomSubscribers peer frame => peer = key.1 ∧ roomStatus key frame = some b
    | .publishToSubscribers subscribers frame =>
      o.peer ∈ subscribers ∧ roomStatus key frame = some b
    | _ => False

/-- A report put into the observer's mailbox is current, or a current one is still owed. -/
def Timely (o : Observer) (status : ServerFrame → Option Bool) (feed : Feed Services Op Bool)
    (s : RelayState) : RelayAction → Prop
  | .call _ _ => True
  | .advance i choice =>
    match s.tasks i with
    | [] => True
    | op :: _ =>
      ∀ frame ∈ sentTo o.peer op choice, ∀ b, status frame = some b →
        b = feed.value s.shared ∨ s.Pending (feed.Owes (feed.value s.shared))

/-- A registration that stores an absent snapshot without announcing the room finds the observer
not last told that the room ended, or an announcement still owed. -/
def Refreshed (key : RoomKey) (feed : Feed Services Op Bool) (s : RelayState) :
    RelayAction → Prop
  | .call _ _ => True
  | .advance i _ =>
    match s.tasks i with
    | .onConnectionInserted peer room insert :: _ =>
      (peer, room.roomId) = key → insert.isFirstInRoom = false →
        ¬ s.shared.roomState.Holds key →
        (feed.log s.shared).getLast? ≠ some false ∨ s.Pending (feed.Owes true)
    | _ => True

/-- The observer stays connected, receiving and subscribed to the presence of a peer. -/
def WatchesPresence (o : Observer) (peerId : PeerId) (s : RelayState) (a : RelayAction) : Prop :=
  o.isReceiving s.shared = true ∧ o.isKept s a = true ∧
    o.peer ∈ s.shared.presence.subscriptions.subscribersOf peerId

/-- The observer stays connected, receiving and subscribed to the rooms of a peer. -/
def WatchesRooms (o : Observer) (peerId : PeerId) (s : RelayState) (a : RelayAction) : Prop :=
  o.isReceiving s.shared = true ∧ o.isKept s a = true ∧
    o.peer ∈ s.shared.rooms.subscriptions.subscribersOf peerId

variable {status : ServerFrame → Option Bool}

/-- Reports are appended in the order in which their frames are queued. -/
theorem reports_append {o : Observer} {since : Nat} {s₁ s₂ : Services} {sent : List ServerFrame}
    (started : since ≤ (o.frames s₁).length) (appended : o.frames s₂ = o.frames s₁ ++ sent) :
    reports o status since s₂ = reports o status since s₁ ++ sent.filterMap status := by
  rw [reports, appended, List.drop_append_of_le_length started, List.filterMap_append]
  rfl

section Publish

variable {o : Observer} {since : Nat} {s : RelayState} {i : Nat} {rest new : List Op}
  {services : Services} {choice : PeerId}

/-- A lookup that finds the observer goes on to send to it. -/
private theorem publish_owes {subscribers : List PeerId} {frame : ServerFrame} {P : Op → Prop}
    (subscribed : o.peer ∈ subscribers)
    (owes : ∀ remaining, o.peer ∈ remaining → P (.publishToSubscribers remaining frame)) :
    ∃ op' ∈ publish subscribers frame, P op' := by
  have nonempty : subscribers.isEmpty = false := by
    cases subscribers with
    | nil => simp at subscribed
    | cons => rfl
  refine ⟨.publishToSubscribers subscribers frame, ?_, owes subscribers subscribed⟩
  simp [publish, nonempty]

/-- Serving one subscriber of a report keeps the feed settled: either the observer is served
with a timely report, or it remains to be served. -/
private theorem settled_publish {feed : Feed Services Op Bool} {subscribers : List PeerId}
    {frame : ServerFrame} (isLog : feed.log = reports o status since)
    (isOwes : ∀ b remaining, feed.Owes b (.publishToSubscribers remaining frame) ↔
      o.peer ∈ remaining ∧ status frame = some b)
    (busy : s.tasks i = .publishToSubscribers subscribers frame :: rest)
    (ran : s.shared.run (.publishToSubscribers subscribers frame) choice = some (services, new))
    (receiving : o.isReceiving s.shared = true) (started : since ≤ (o.frames s.shared).length)
    (timely : ∀ frame' ∈ sentTo o.peer (.publishToSubscribers subscribers frame) choice,
      ∀ b, status frame' = some b →
        b = feed.value s.shared ∨ s.Pending (feed.Owes (feed.value s.shared)))
    (sameValue : feed.value services = feed.value s.shared) (settled : feed.Settled s) :
    feed.Settled ⟨services, Function.update s.tasks i (new ++ rest)⟩ := by
  have appended := frames_run busy ran receiving (by simp [Observer.isKept, busy])
  have log : reports o status since services = reports o status since s.shared ++
      (sentTo o.peer (.publishToSubscribers subscribers frame) choice).filterMap status :=
    reports_append started appended
  rw [← isLog] at log
  simp only [Services.run] at ran
  split at ran
  swap
  · simp at ran
  obtain ⟨-, rfl⟩ := by simpa using ran
  -- does this publication reach the observer now?
  by_cases mine : choice = o.peer
  · have sent : sentTo o.peer (.publishToSubscribers subscribers frame) choice = [frame] := by
      simp [sentTo, mine]
    rw [sent] at log timely
    cases reported : status frame with
    | none =>
      refine Feed.settled_quiet busy settled (by simpa [reported] using log) sameValue ?_
      intro owes
      have claimed := ((isOwes _ _).mp owes).2
      rw [reported] at claimed
      exact absurd claimed (by simp)
    | some b =>
      refine Feed.settled_report busy sameValue (by simpa [reported] using log)
        (timely frame (List.mem_singleton_self frame) b reported) ?_
      intro owes
      have claimed := ((isOwes _ _).mp owes).2
      rw [reported] at claimed
      exact Option.some.inj claimed
  · have sent : sentTo o.peer (.publishToSubscribers subscribers frame) choice = [] := by
      simp [sentTo, mine]
    rw [sent] at log
    refine Feed.settled_quiet busy settled (by simpa using log) sameValue ?_
    intro owes
    obtain ⟨waiting, reported⟩ := (isOwes _ _).mp owes
    -- another subscriber is served, and the observer goes on waiting
    have stillWaiting : o.peer ∈ subscribers.erase choice :=
      (List.mem_erase_of_ne (Ne.symm mine)).mpr waiting
    exact publish_owes stillWaiting fun remaining mem => (isOwes _ _).mpr ⟨mem, reported⟩

end Publish

/-! ## Presence -/

section Presence

variable {o : Observer} {peerId : PeerId} {since : Nat} {s : RelayState} {i : Nat} {op : Op}
  {rest new : List Op} {services : Services} {choice : PeerId}

/-- The transition of an insertion that brings the peer online is still to be published. -/
private theorem presence_insert (busy : s.tasks i = op :: rest)
    {peer : PeerId} {room : RoomMeta} {deviceId : DeviceId} {tx : Sender ServerFrame}
    (isInsert : op = .connectionsInsert peer room deviceId tx)
    (ran : s.shared.run op choice = some (services, new))
    (sameLog : (presenceFeed o peerId since).log services =
      (presenceFeed o peerId since).log s.shared)
    (settled : (presenceFeed o peerId since).Settled s) :
    (presenceFeed o peerId since).Settled ⟨services, Function.update s.tasks i (new ++ rest)⟩ := by
  subst isInsert
  obtain ⟨rfl, rfl⟩ := by simpa [Services.run] using ran
  by_cases changed : peer = peerId ∧ s.shared.connections.isOnline peerId = false
  · obtain ⟨rfl, offline⟩ := changed
    have announces : Op.presenceSubscribers peer (.peerOnline peer) ∈ afterInsert peer room
        (s.shared.connections.insert peer room.roomId deviceId tx).2 := by
      have transition : PresenceState.onConnectionInserted
          (s.shared.connections.insert peer room.roomId deviceId tx).2 = .becameOnline peer := by
        rw [PresenceState.onConnectionInserted, ConnectionRegistry.wasOfflineBefore_insert,
          offline]
        rfl
      simp [afterInsert, transition, publishPresenceTransition]
    refine Feed.settled_change announces ⟨rfl, ?_⟩
    simp [presenceStatus, presenceFeed, ConnectionRegistry.isOnline_insert_self]
  · refine Feed.settled_quiet busy settled sameLog ?_ (fun owes => owes.elim)
    by_cases same : peer = peerId
    · subst same
      have online : s.shared.connections.isOnline peer = true := by simpa using changed
      exact ConnectionRegistry.isOnline_insert_self.trans online.symm
    · exact ConnectionRegistry.isOnline_insert_of_ne (Ne.symm same)

/-- The transition of a removal that takes the peer offline is still to be published. -/
private theorem presence_remove (busy : s.tasks i = op :: rest)
    {peer : PeerId} {roomId : RoomId} {connId : ConnId} {nowMs : Int} {teardown : Bool}
    (isRemove : op = .connectionsRemove peer roomId connId nowMs teardown)
    (ran : s.shared.run op choice = some (services, new))
    (sameLog : (presenceFeed o peerId since).log services =
      (presenceFeed o peerId since).log s.shared)
    (settled : (presenceFeed o peerId since).Settled s) :
    (presenceFeed o peerId since).Settled ⟨services, Function.update s.tasks i (new ++ rest)⟩ := by
  subst isRemove
  obtain ⟨rfl, rfl⟩ := by simpa [Services.run] using ran
  by_cases same : (s.shared.connections.remove peer roomId connId).1.isOnline peerId =
      s.shared.connections.isOnline peerId
  · exact Feed.settled_quiet busy settled sameLog same (fun owes => owes.elim)
  rcases s.shared.connections.remove_cases peer roomId connId with
    ⟨emptied, removed, wasLive, live, offlined⟩ | ⟨-, -, live⟩
  · -- the peer's last room was emptied
    have mine : peer = peerId := by
      by_contra other
      refine same (ConnectionRegistry.isOnline_congr fun room => ?_)
      rw [live]
      simp [Ne.symm other]
    subst mine
    have wasOnline : s.shared.connections.isOnline peer = true :=
      ConnectionRegistry.isOnline_iff_live.mpr ⟨roomId, wasLive⟩
    have offline : (s.shared.connections.remove peer roomId connId).1.isOnline peer = false := by
      simpa [wasOnline] using same
    have reported : Op.presenceSubscribers peer (.peerOffline peer nowMs) ∈
        afterRemove peer roomId (s.shared.connections.remove peer roomId connId).2 nowMs
          teardown := by
      have transition : PresenceState.onConnectionRemoved
          (s.shared.connections.remove peer roomId connId).2 nowMs =
            some (.becameOffline peer nowMs) := by
        simp [PresenceState.onConnectionRemoved, removed, offlined, offline,
          ConnectionRegistry.peerId_remove]
      simp [afterRemove, transition, publishPresenceTransition]
    refine Feed.settled_change reported ⟨rfl, ?_⟩
    simp [presenceStatus, presenceFeed, offline]
  · exact absurd (ConnectionRegistry.isOnline_congr fun room => live (peerId, room)) same

/-- The backfill of a subscription reports the peer online. -/
private theorem presence_backfill (busy : s.tasks i = op :: rest)
    {subscriber peer : PeerId} (isBackfill : op = .backfillSend subscriber peer)
    (ran : s.shared.run op choice = some (services, new))
    (log : (presenceFeed o peerId since).log services =
      (presenceFeed o peerId since).log s.shared ++
        (sentTo o.peer op choice).filterMap (presenceStatus peerId))
    (timely : ∀ frame ∈ sentTo o.peer op choice, ∀ b, presenceStatus peerId frame = some b →
      b = (presenceFeed o peerId since).value s.shared ∨
        s.Pending ((presenceFeed o peerId since).Owes
          ((presenceFeed o peerId since).value s.shared)))
    (settled : (presenceFeed o peerId since).Settled s) :
    (presenceFeed o peerId since).Settled ⟨services, Function.update s.tasks i (new ++ rest)⟩ := by
  subst isBackfill
  have sameValue : (presenceFeed o peerId since).value services =
      (presenceFeed o peerId since).value s.shared :=
    ConnectionRegistry.isOnline_congr fun room =>
      live_run (by simp [Op.MovesConnections]) ran (peerId, room)
  by_cases mine : subscriber = o.peer ∧ peer = peerId
  · obtain ⟨rfl, rfl⟩ := mine
    have sent : sentTo o.peer (.backfillSend o.peer peer) choice = [.peerOnline peer] := by
      simp [sentTo]
    have reported : presenceStatus peer (.peerOnline peer) = some true := by
      simp [presenceStatus]
    rw [sent] at log timely
    refine Feed.settled_report busy sameValue (by simpa [reported] using log)
      (timely _ (List.mem_singleton_self _) true reported) ?_
    rintro ⟨-, claimed⟩
    exact Option.some.inj (reported.symm.trans claimed)
  · have sent : (sentTo o.peer (.backfillSend subscriber peer) choice).filterMap
        (presenceStatus peerId) = [] := by
      by_cases served : subscriber = o.peer
      · have other : peer ≠ peerId := fun same => mine ⟨served, same⟩
        simp [sentTo, served, presenceStatus, other]
      · simp [sentTo, served]
    rw [sent, List.append_nil] at log
    refine Feed.settled_quiet busy settled log sameValue ?_
    rintro ⟨served, claimed⟩
    have same : peer = peerId := by
      by_contra other
      simp [presenceStatus, other] at claimed
    exact absurd ⟨served, same⟩ mine

/-- One operation keeps the presence feed of a watching observer settled. -/
private theorem presence_advance (busy : s.tasks i = op :: rest)
    (ran : s.shared.run op choice = some (services, new))
    (watches : WatchesPresence o peerId s (.advance i choice))
    (started : since ≤ (o.frames s.shared).length)
    (timely : Timely o (presenceStatus peerId) (presenceFeed o peerId since) s
      (.advance i choice))
    (settled : (presenceFeed o peerId since).Settled s) :
    (presenceFeed o peerId since).Settled ⟨services, Function.update s.tasks i (new ++ rest)⟩ := by
  obtain ⟨receiving, kept, subscribed⟩ := watches
  have log : (presenceFeed o peerId since).log services =
      (presenceFeed o peerId since).log s.shared ++
        (sentTo o.peer op choice).filterMap (presenceStatus peerId) :=
    reports_append started (frames_run busy ran receiving kept)
  simp only [Timely, busy] at timely
  have sameValue : ¬ op.MovesConnections → (presenceFeed o peerId since).value services =
      (presenceFeed o peerId since).value s.shared := fun still =>
    ConnectionRegistry.isOnline_congr fun room => live_run still ran (peerId, room)
  cases op with
  | connectionsInsert =>
    exact presence_insert busy rfl ran (log.trans (List.append_nil _)) settled
  | connectionsRemove =>
    exact presence_remove busy rfl ran (log.trans (List.append_nil _)) settled
  | publishToSubscribers subscribers frame =>
    exact settled_publish rfl (fun _ _ => Iff.rfl) busy ran receiving started timely
      (sameValue (by simp [Op.MovesConnections])) settled
  | backfillSend => exact presence_backfill busy rfl ran log timely settled
  | presenceSubscribers peer frame =>
    refine Feed.settled_quiet busy settled (log.trans (List.append_nil _))
      (sameValue (by simp [Op.MovesConnections])) ?_
    rintro ⟨rfl, claimed⟩
    obtain ⟨-, rfl⟩ := by simpa [Services.run] using ran
    exact publish_owes subscribed fun remaining mem => ⟨mem, claimed⟩
  | _ =>
    exact Feed.settled_quiet busy settled (log.trans (List.append_nil _))
      (sameValue (by simp [Op.MovesConnections])) (fun owes => owes.elim)

end Presence

/-! ## Rooms -/

section Rooms

variable {o : Observer} {key : RoomKey} {since : Nat} {s : RelayState} {i : Nat} {op : Op}
  {rest new : List Op} {services : Services} {choice : PeerId}

/-- The value of the room feed depends only on whether the snapshot is there. -/
private theorem roomValue_congr
    (same : services.roomState.Holds key ↔ s.shared.roomState.Holds key) :
    (roomFeed o key since).value services = (roomFeed o key since).value s.shared :=
  decide_eq_decide.mpr same

/-- Storing a snapshot announces the room, or finds an observer that needs no announcement. -/
private theorem room_stored (busy : s.tasks i = op :: rest)
    {peer : PeerId} {room : RoomMeta} {insert : ConnectionInsert}
    (isStored : op = .onConnectionInserted peer room insert)
    (ran : s.shared.run op choice = some (services, new))
    (sameLog : (roomFeed o key since).log services = (roomFeed o key since).log s.shared)
    (refreshed : (peer, room.roomId) = key → insert.isFirstInRoom = false →
      ¬ s.shared.roomState.Holds key →
      ((roomFeed o key since).log s.shared).getLast? ≠ some false ∨
        s.Pending ((roomFeed o key since).Owes true))
    (settled : (roomFeed o key since).Settled s) :
    (roomFeed o key since).Settled ⟨services, Function.update s.tasks i (new ++ rest)⟩ := by
  subst isStored
  obtain ⟨rfl, rfl⟩ := by simpa [Services.run] using ran
  by_cases here : (peer, room.roomId) = key
  swap
  · -- the snapshot of another room
    refine Feed.settled_quiet busy settled sameLog (roomValue_congr ?_) (fun owes => ?_)
    · rw [RoomStateStore.holds_onConnectionInserted]
      simp [Ne.symm here]
    · exact absurd owes.1 here
  have held : (s.shared.roomState.onConnectionInserted peer room insert).1.Holds key :=
    (RoomStateStore.holds_onConnectionInserted room insert).mpr (Or.inl here.symm)
  -- the first connection of a room announces it
  cases first : insert.isFirstInRoom with
  | true =>
    refine Feed.settled_change (o := Op.roomSubscribers peer (.roomAnnounced peer room)) ?_ ?_
    · simp [RoomStateStore.onConnectionInserted, first]
    · subst here
      simp [roomFeed, roomStatus, held]
  | false =>
    by_cases wasHeld : s.shared.roomState.Holds key
    · refine Feed.settled_quiet busy settled sameLog (roomValue_congr ?_) (fun owes => ?_)
      · exact ⟨fun _ => wasHeld, fun _ => held⟩
      · exact absurd owes.2.1 (by simp [first])
    · intro b last
      -- a snapshot that comes back without an announcement
      have nowTrue : (roomFeed o key since).value
          { s.shared with
            roomState := (s.shared.roomState.onConnectionInserted peer room insert).1 } =
          true := decide_eq_true held
      rw [show (roomFeed o key since).log _ = _ from sameLog] at last
      rw [show (roomFeed o key since).value _ = true from nowTrue]
      rcases refreshed here first wasHeld with notEnded | pending
      · left
        cases b with
        | true => rfl
        | false => exact absurd last notEnded
      · right
        refine (TaskSystem.pending_advance busy pending).resolve_left (fun owes => ?_)
        exact absurd owes.2.1 (by simp [first])

/-- Dropping a snapshot ends the room. -/
private theorem room_dropped (busy : s.tasks i = op :: rest)
    {peer : PeerId} {roomId : RoomId} {remove : ConnectionRemove} {nowMs : Int}
    (isDropped : op = .onConnectionRemoved peer roomId remove nowMs)
    (ran : s.shared.run op choice = some (services, new))
    (sameLog : (roomFeed o key since).log services = (roomFeed o key since).log s.shared)
    (settled : (roomFeed o key since).Settled s) :
    (roomFeed o key since).Settled ⟨services, Function.update s.tasks i (new ++ rest)⟩ := by
  subst isDropped
  obtain ⟨rfl, rfl⟩ := by simpa [Services.run] using ran
  by_cases ends : remove.roomEmptied = true ∧ key = (peer, roomId)
  · obtain ⟨emptied, rfl⟩ := ends
    have absent : ¬ (s.shared.roomState.onConnectionRemoved peer roomId remove
        nowMs).1.Holds (peer, roomId) := by
      rw [RoomStateStore.holds_onConnectionRemoved]
      simp [emptied]
    refine Feed.settled_change (o := Op.roomSubscribers peer (.roomEnded peer roomId nowMs))
      ?_ ?_
    · simp [RoomStateStore.onConnectionRemoved, emptied]
    · simp [roomFeed, roomStatus, absent]
  · refine Feed.settled_quiet busy settled sameLog (roomValue_congr ?_) (fun owes => ?_)
    · rw [RoomStateStore.holds_onConnectionRemoved]
      simp [ends]
    · exact absurd ⟨owes.2.1, owes.1.symm⟩ ends

/-- One operation keeps the room feed of a watching observer settled. -/
private theorem room_advance (busy : s.tasks i = op :: rest)
    (ran : s.shared.run op choice = some (services, new))
    (watches : WatchesRooms o key.1 s (.advance i choice))
    (started : since ≤ (o.frames s.shared).length)
    (timely : Timely o (roomStatus key) (roomFeed o key since) s (.advance i choice))
    (refreshed : Refreshed key (roomFeed o key since) s (.advance i choice))
    (settled : (roomFeed o key since).Settled s) :
    (roomFeed o key since).Settled ⟨services, Function.update s.tasks i (new ++ rest)⟩ := by
  obtain ⟨receiving, kept, subscribed⟩ := watches
  have log : (roomFeed o key since).log services =
      (roomFeed o key since).log s.shared ++
        (sentTo o.peer op choice).filterMap (roomStatus key) :=
    reports_append started (frames_run busy ran receiving kept)
  simp only [Timely, busy] at timely
  simp only [Refreshed, busy] at refreshed
  have sameValue : ¬ op.MovesRooms → (roomFeed o key since).value services =
      (roomFeed o key since).value s.shared := fun still =>
    roomValue_congr (holds_run still ran key)
  -- only the two operations on the snapshots move the value; a publication may report it
  cases op with
  | onConnectionInserted =>
    exact room_stored busy rfl ran (log.trans (List.append_nil _)) refreshed settled
  | onConnectionRemoved =>
    exact room_dropped busy rfl ran (log.trans (List.append_nil _)) settled
  | publishToSubscribers subscribers frame =>
    exact settled_publish rfl (fun _ _ => Iff.rfl) busy ran receiving started timely
      (sameValue (by simp [Op.MovesRooms])) settled
  | backfillSend subscriber peer =>
    -- a backfill speaks of presence
    have silent : (sentTo o.peer (.backfillSend subscriber peer) choice).filterMap
        (roomStatus key) = [] := by
      by_cases served : subscriber = o.peer
      · simp [sentTo, served, roomStatus]
      · simp [sentTo, served]
    rw [silent, List.append_nil] at log
    exact Feed.settled_quiet busy settled log (sameValue (by simp [Op.MovesRooms]))
      (fun owes => owes.elim)
  | roomSubscribers peer frame =>
    refine Feed.settled_quiet busy settled (log.trans (List.append_nil _))
      (sameValue (by simp [Op.MovesRooms])) ?_
    rintro ⟨rfl, claimed⟩
    obtain ⟨-, rfl⟩ := by simpa [Services.run] using ran
    exact publish_owes subscribed fun remaining mem => ⟨mem, claimed⟩
  | _ =>
    exact Feed.settled_quiet busy settled (log.trans (List.append_nil _))
      (sameValue (by simp [Op.MovesRooms])) (fun owes => owes.elim)

end Rooms

/-! ## Runs -/

section Runs

variable {o : Observer} {s s' : RelayState} {a : RelayAction} {since : Nat}

/-- The frames of a connection that stays open only grow. -/
private theorem started_step (receiving : o.isReceiving s.shared = true)
    (kept : o.isKept s a = true) (started : since ≤ (o.frames s.shared).length)
    (taken : relaySystem.machine.step s a = some s') : since ≤ (o.frames s'.shared).length := by
  cases a with
  | call i request =>
    obtain ⟨-, rfl⟩ := TaskSystem.step_call taken
    exact started
  | advance i choice =>
    obtain ⟨op, rest, services, new, busy, ran, rfl⟩ := advance_cases taken
    rw [frames_run busy ran receiving kept, List.length_append]
    omega

/-- What a step must meet while an observer follows the presence of a peer. -/
structure PresenceStep (o : Observer) (peerId : PeerId) (since : Nat) (s : RelayState)
    (a : RelayAction) : Prop where
  watches : WatchesPresence o peerId s a
  timely : Timely o (presenceStatus peerId) (presenceFeed o peerId since) s a

/-- What a step must meet while an observer follows one room of a peer. -/
structure RoomStep (o : Observer) (key : RoomKey) (since : Nat) (s : RelayState)
    (a : RelayAction) : Prop where
  watches : WatchesRooms o key.1 s a
  timely : Timely o (roomStatus key) (roomFeed o key since) s a
  refreshed : Refreshed key (roomFeed o key since) s a

/-- A run keeps the presence feed of a watching observer settled. -/
theorem presence_settled {peerId : PeerId} {s₀ : RelayState}
    (run : relaySystem.machine.RunsTo
      (PresenceStep o peerId (o.frames s₀.shared).length) s₀ s) :
    (presenceFeed o peerId (o.frames s₀.shared).length).Settled s := by
  have kept : (o.frames s₀.shared).length ≤ (o.frames s.shared).length ∧
      (presenceFeed o peerId (o.frames s₀.shared).length).Settled s := by
    refine Machine.RunsTo.invariant (I := fun t =>
      (o.frames s₀.shared).length ≤ (o.frames t.shared).length ∧
        (presenceFeed o peerId (o.frames s₀.shared).length).Settled t) ?_ run ⟨le_rfl, ?_⟩
    · rintro t a t' ⟨started, settled⟩ ⟨watches, timely⟩ taken
      refine ⟨started_step watches.1 watches.2.1 started taken, ?_⟩
      cases a with
      | call i request =>
        obtain ⟨free, rfl⟩ := TaskSystem.step_call taken
        exact Feed.settled_call free settled
      | advance i choice =>
        obtain ⟨op, rest, services, new, busy, ran, rfl⟩ := advance_cases taken
        exact presence_advance busy ran watches started timely settled
    · exact Feed.settled_of_log_nil (by simp [presenceFeed, reports])
  exact kept.2

/-- A run keeps the feed of a room settled for a watching observer. -/
theorem room_settled {key : RoomKey} {s₀ : RelayState}
    (run : relaySystem.machine.RunsTo (RoomStep o key (o.frames s₀.shared).length) s₀ s) :
    (roomFeed o key (o.frames s₀.shared).length).Settled s := by
  have kept : (o.frames s₀.shared).length ≤ (o.frames s.shared).length ∧
      (roomFeed o key (o.frames s₀.shared).length).Settled s := by
    refine Machine.RunsTo.invariant (I := fun t =>
      (o.frames s₀.shared).length ≤ (o.frames t.shared).length ∧
        (roomFeed o key (o.frames s₀.shared).length).Settled t) ?_ run ⟨le_rfl, ?_⟩
    · rintro t a t' ⟨started, settled⟩ ⟨watches, timely, refreshed⟩ taken
      refine ⟨started_step watches.1 watches.2.1 started taken, ?_⟩
      cases a with
      | call i request =>
        obtain ⟨free, rfl⟩ := TaskSystem.step_call taken
        exact Feed.settled_call free settled
      | advance i choice =>
        obtain ⟨op, rest, services, new, busy, ran, rfl⟩ := advance_cases taken
        exact room_advance busy ran watches started timely refreshed settled
    · exact Feed.settled_of_log_nil (by simp [roomFeed, reports])
  exact kept.2

end Runs

/-- When no call is in progress, the last presence frame since the observer subscribed agrees
with the connection table, and for each room the last announcement or end since then agrees
with the room store. -/
theorem last_events_agree {o : Observer} {peerId : PeerId} {s : RelayState} (idle : s.Idle) :
    (∀ s₀, relaySystem.machine.RunsTo (PresenceStep o peerId (o.frames s₀.shared).length) s₀ s →
      ∀ b, (reports o (presenceStatus peerId) (o.frames s₀.shared).length s.shared).getLast? =
        some b → b = s.shared.connections.isOnline peerId) ∧
    (∀ s₀ roomId, relaySystem.machine.RunsTo
        (RoomStep o (peerId, roomId) (o.frames s₀.shared).length) s₀ s →
      ∀ b, (reports o (roomStatus (peerId, roomId)) (o.frames s₀.shared).length
        s.shared).getLast? = some b → (b = true ↔ s.shared.roomState.Holds (peerId, roomId))) := by
  constructor
  · intro s₀ run b last
    exact Feed.agrees_of_idle (presence_settled run) idle last
  · intro s₀ roomId run b last
    have agrees := Feed.agrees_of_idle (room_settled run) idle last
    rw [agrees]
    exact decide_eq_true_iff

/-! ## Runs without a stale report -/

/-- Every report put into the observer's mailbox is current. -/
def isCurrent (o : Observer) (status : ServerFrame → Option Bool) (feed : Feed Services Op Bool)
    (s : RelayState) : RelayAction → Bool
  | .call _ _ => true
  | .advance i choice =>
    match s.tasks i with
    | [] => true
    | op :: _ =>
      (sentTo o.peer op choice).all fun frame =>
        (status frame).all fun b => b == feed.value s.shared

/-- Every registration that stores a snapshot announces its room. -/
def isAnnouncing (s : RelayState) : RelayAction → Bool
  | .call _ _ => true
  | .advance i _ =>
    match s.tasks i with
    | .onConnectionInserted _ _ insert :: _ => insert.isFirstInRoom
    | _ => true

theorem timely_of_isCurrent {o : Observer} {feed : Feed Services Op Bool} {s : RelayState}
    {a : RelayAction} (current : isCurrent o status feed s a = true) :
    Timely o status feed s a := by
  cases a with
  | call i request => trivial
  | advance i choice =>
    simp only [isCurrent] at current
    simp only [Timely]
    split
    · trivial
    · next op rest busy =>
      rw [busy] at current
      intro frame mem b reported
      have checked := List.all_eq_true.mp current frame mem
      rw [reported] at checked
      exact Or.inl (by simpa using checked)

theorem refreshed_of_isAnnouncing {key : RoomKey} {feed : Feed Services Op Bool}
    {s : RelayState} {a : RelayAction} (announcing : isAnnouncing s a = true) :
    Refreshed key feed s a := by
  cases a with
  | call i request => trivial
  | advance i choice =>
    simp only [isAnnouncing] at announcing
    simp only [Refreshed]
    split
    · next busy =>
      rw [busy] at announcing
      intro _ notFirst
      exact absurd announcing (by simp [notFirst])
    · trivial

/-! ## Two schedules -/

instance (o : Observer) (peerId : PeerId) (s : RelayState) (a : RelayAction) :
    Decidable (WatchesPresence o peerId s a) :=
  inferInstanceAs (Decidable (_ ∧ _ ∧ _))

instance (o : Observer) (peerId : PeerId) (s : RelayState) (a : RelayAction) :
    Decidable (WatchesRooms o peerId s a) :=
  inferInstanceAs (Decidable (_ ∧ _ ∧ _))

/-- The phone of the owner, as the observer of its Pi. -/
def phone : Observer := ⟨"owner", "app", 0⟩

/-- The phone connects and subscribes to its Pi. -/
def subscribed : List RelayAction :=
  registration 2 "owner" "app" "phone" ++
    [.call 2 (.subscribePresence "owner" ["pi"]), .advance 2 "", .advance 2 "",
      .call 2 (.subscribeRooms "owner" ["pi"]), .advance 2 ""]

/-- The Pi registers, and the phone is told that it is online and that its room is there. -/
theorem last_events_agree_registered :
    ∃ s₀ s, relaySystem.machine.exec initial subscribed = some s₀ ∧
      relaySystem.machine.exec s₀ (reportedRegistration 0 "pi" "main" "laptop" "owner") =
        some s ∧
      (reports phone (presenceStatus "pi") (phone.frames s₀.shared).length s.shared).getLast? =
        some true ∧
      (reports phone (roomStatus ("pi", "main")) (phone.frames s₀.shared).length
        s.shared).getLast? = some true ∧
      true = s.shared.connections.isOnline "pi" ∧
      (true = true ↔ s.shared.roomState.Holds ("pi", "main")) := by
  have passed : (relaySystem.machine.exec initial subscribed).any (fun s₀ =>
      -- the kernel runs the schedule and checks every step of it
      decide (s₀.isFreeBelow 3 = true ∧
        relaySystem.machine.Meets (fun t a =>
          (WatchesPresence phone "pi" t a ∧ WatchesRooms phone "pi" t a) ∧
          (isCurrent phone (presenceStatus "pi")
            (presenceFeed phone "pi" (phone.frames s₀.shared).length) t a = true ∧
          isCurrent phone (roomStatus ("pi", "main"))
            (roomFeed phone ("pi", "main") (phone.frames s₀.shared).length) t a = true ∧
          isAnnouncing t a = true)) s₀
          (reportedRegistration 0 "pi" "main" "laptop" "owner")) &&
      (relaySystem.machine.exec s₀ (reportedRegistration 0 "pi" "main" "laptop" "owner")).any
        fun s => decide (s.isFreeBelow 3 = true ∧
          (reports phone (presenceStatus "pi") (phone.frames s₀.shared).length
            s.shared).getLast? = some true ∧
          (reports phone (roomStatus ("pi", "main")) (phone.frames s₀.shared).length
            s.shared).getLast? = some true)) = true := by
    decide
  obtain ⟨s₀, executed₀, checked₀⟩ := (Option.any_eq_true _ _).mp passed
  rw [Bool.and_eq_true] at checked₀
  obtain ⟨s, executed, checked⟩ := (Option.any_eq_true _ _).mp checked₀.2
  obtain ⟨free₀, meets⟩ := of_decide_eq_true checked₀.1
  obtain ⟨free, online, announced⟩ := of_decide_eq_true checked
  have idle₀ : s₀.Idle :=
    TaskSystem.idle_of_exec 3 (by decide) init_initial.2 executed₀ free₀
  have idle : s.Idle := TaskSystem.idle_of_exec 3 (by decide) idle₀ executed free
  have agree := @last_events_agree phone "pi" s idle
  -- the theorem at the run that was checked
  refine ⟨s₀, s, executed₀, executed, online, announced, ?_, ?_⟩
  · refine agree.1 s₀ (Machine.runsTo_of_exec (meets.mono ?_) executed) true online
    rintro t a ⟨watches, current, -⟩
    exact ⟨watches.1, timely_of_isCurrent current⟩
  · refine agree.2 s₀ "main" (Machine.runsTo_of_exec (meets.mono ?_) executed) true announced
    rintro t a ⟨watches, -, current, announcing⟩
    exact ⟨watches.2, timely_of_isCurrent current, refreshed_of_isAnnouncing announcing⟩

/-- The Pi reconnects while its old connection is torn down, and the new registration overtakes
the report that it went offline. -/
def overtaken : List RelayAction :=
  reportedRegistration 0 "pi" "main" "laptop" "owner" ++
    [.call 0 (.teardown "pi" "main" 1 1000), .advance 0 "", .advance 0 "", .advance 0 "",
      .advance 0 "owner", .advance 0 ""] ++
    reportedRegistration 1 "pi" "main" "laptop" "owner" ++
    [.advance 0 "owner", .advance 0 "", .advance 0 "", .advance 0 ""]

/-- A peer that is online can be last reported offline when no call is in progress, to an
observer that stayed connected, receiving and subscribed. -/
theorem exists_idle_online_reported_offline :
    ∃ s₀ s, relaySystem.machine.exec initial subscribed = some s₀ ∧
      relaySystem.machine.exec s₀ overtaken = some s ∧
      relaySystem.machine.Meets (fun t a => WatchesPresence phone "pi" t a ∧
        WatchesRooms phone "pi" t a) s₀ overtaken ∧
      s.Idle ∧ s.shared.connections.isOnline "pi" = true ∧
      (reports phone (presenceStatus "pi") (phone.frames s₀.shared).length s.shared).getLast? =
        some false := by
  have passed : (relaySystem.machine.exec initial subscribed).any (fun s₀ =>
      decide (s₀.isFreeBelow 3 = true ∧
        relaySystem.machine.Meets (fun t a => WatchesPresence phone "pi" t a ∧
          WatchesRooms phone "pi" t a) s₀ overtaken) &&
      (relaySystem.machine.exec s₀ overtaken).any fun s =>
        decide (s.isFreeBelow 3 = true ∧ s.shared.connections.isOnline "pi" = true ∧
          (reports phone (presenceStatus "pi") (phone.frames s₀.shared).length
            s.shared).getLast? = some false)) = true := by
    decide
  obtain ⟨s₀, executed₀, checked₀⟩ := (Option.any_eq_true _ _).mp passed
  rw [Bool.and_eq_true] at checked₀
  obtain ⟨s, executed, checked⟩ := (Option.any_eq_true _ _).mp checked₀.2
  obtain ⟨free₀, meets⟩ := of_decide_eq_true checked₀.1
  obtain ⟨free, online, reported⟩ := of_decide_eq_true checked
  have idle₀ : s₀.Idle :=
    TaskSystem.idle_of_exec 3 (by decide) init_initial.2 executed₀ free₀
  have idle : s.Idle := TaskSystem.idle_of_exec 3 (by decide) idle₀ executed free
  exact ⟨s₀, s, executed₀, executed, meets, idle, online, reported⟩

end OutpostPi.Relay.EventConvergence
