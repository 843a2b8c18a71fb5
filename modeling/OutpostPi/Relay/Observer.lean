import OutpostPi.Relay.Lifecycle

/-!
# One connection seen from outside

An `Observer` is one connection of a peer, followed through the operations of every call. What
it has been sent is the history of its mailbox, and `frames_run` says that an operation appends
to it exactly the frames that it sends to the observer's peer. `entry_run` says that the
connection stays in the table as long as no operation ends it.
-/

set_option autoImplicit false

namespace OutpostPi.Relay

open OutpostPi.Lib

/-- One connection of a peer. -/
structure Observer where
  peer : PeerId
  room : RoomId
  connId : ConnId

namespace Observer

def key (o : Observer) : RoomKey := (o.peer, o.room)

/-- The observer's connection in the table. -/
def entry (o : Observer) (services : Services) : Option (ConnectionEntry ServerFrame) :=
  services.connections.entryOf o.key o.connId

/-- Every frame queued to the observer so far. -/
def frames (o : Observer) (services : Services) : List ServerFrame :=
  ((o.entry services).map fun entry => entry.tx.queued).getD []

/-- The observer is connected and its mailbox is neither closed nor full. -/
def isReceiving (o : Observer) (services : Services) : Bool :=
  (o.entry services).any fun entry => !entry.tx.closed && !entry.tx.isFull

/-- The action does not end the observer's connection. -/
def isKept (o : Observer) (s : RelayState) : RelayAction → Bool
  | .call _ _ => true
  | .advance i _ =>
    match s.tasks i with
    | .connectionsInsert peerId room deviceId _ :: _ =>
      o.key != (peerId, room.roomId) ||
        (o.entry s.shared).all fun entry => entry.deviceId != deviceId
    | .connectionsRemove peerId roomId connId _ _ :: _ =>
      o.key != (peerId, roomId) || o.connId != connId
    | _ => true

end Observer

/-- The frames that an operation puts into the mailboxes of a subscriber. -/
def sentTo (subscriber : PeerId) : Op → PeerId → List ServerFrame
  | .publishToSubscribers _ frame, served => if served = subscriber then [frame] else []
  | .backfillSend served peer, _ => if served = subscriber then [.peerOnline peer] else []
  | _, _ => []

/-! ## What reaches the observer -/

section Frames

variable {o : Observer} {s : RelayState} {i : Nat} {op : Op} {rest new : List Op}
  {services : Services} {choice : PeerId}

/-- Rewriting connections in place keeps the observer's frames when it keeps its queue. -/
private theorem frames_mapEntries {s₁ s₂ : Services}
    {f : RoomKey → ConnectionEntry ServerFrame → ConnectionEntry ServerFrame}
    (mapped : s₂.connections = s₁.connections.mapEntries f)
    (named : ∀ entry, (f o.key entry).connId = entry.connId)
    (sameQueue : ∀ entry, (f o.key entry).tx.queued = entry.tx.queued) :
    o.frames s₂ = o.frames s₁ := by
  simp only [Observer.frames, Observer.entry, mapped,
    ConnectionRegistry.entryOf_mapEntries f named, Option.map_map]
  cases s₁.connections.entryOf o.key o.connId with
  | none => rfl
  | some entry => exact sameQueue entry

/-- A message to a peer reaches the mailboxes of that peer's connections only. -/
private theorem frames_sendToPeer {s₁ s₂ : Services} {served : PeerId} {frame : ServerFrame}
    (sent : s₂.connections = (s₁.connections.sendToPeer served frame).1)
    (receiving : o.isReceiving s₁ = true) :
    o.frames s₂ = o.frames s₁ ++ if served = o.peer then [frame] else [] := by
  simp only [Observer.isReceiving, Observer.entry] at receiving
  simp only [Observer.frames, Observer.entry, sent, ConnectionRegistry.entryOf_sendToPeer]
  cases found : s₁.connections.entryOf o.key o.connId with
  | none => simp [found] at receiving
  | some entry =>
    obtain ⟨isOpen, hasRoom⟩ : entry.tx.closed = false ∧ entry.tx.isFull = false := by
      simpa [found] using receiving
    by_cases mine : served = o.peer
    · subst mine
      simp [Observer.key, ConnectionEntry.offer, Sender.trySend, isOpen, hasRoom]
    · simp [Observer.key, mine, Ne.symm mine]

/-- An operation appends to the observer's mailbox exactly what it sends to its peer. -/
theorem frames_run (busy : s.tasks i = op :: rest)
    (ran : s.shared.run op choice = some (services, new))
    (receiving : o.isReceiving s.shared = true)
    (kept : o.isKept s (.advance i choice) = true) :
    o.frames services = o.frames s.shared ++ sentTo o.peer op choice := by
  obtain ⟨entry, found⟩ : ∃ entry, s.shared.connections.entryOf o.key o.connId = some entry := by
    simp only [Observer.isReceiving, Observer.entry] at receiving
    cases found : s.shared.connections.entryOf o.key o.connId with
    | none => simp [found] at receiving
    | some entry => exact ⟨entry, rfl⟩
  simp only [Observer.isKept, busy] at kept
  cases op with
  | connectionsInsert peerId room deviceId tx =>
    obtain ⟨rfl, -⟩ := by simpa [Services.run] using ran
    -- a device that connects again would replace the observed connection
    have other : o.key = (peerId, room.roomId) → entry.deviceId ≠ deviceId := by
      intro here
      simp only [here, bne_self_eq_false, Bool.false_or] at kept
      simpa [Observer.entry, found] using kept
    simp [Observer.frames, Observer.entry, found, sentTo,
      ConnectionRegistry.entryOf_insert found other]
  | connectionsRemove peerId roomId connId nowMs teardown =>
    obtain ⟨rfl, -⟩ := by simpa [Services.run] using ran
    have other : o.key = (peerId, roomId) → o.connId ≠ connId := by
      intro here
      simpa [here] using kept
    simp [Observer.frames, Observer.entry, found, sentTo,
      ConnectionRegistry.entryOf_remove found other]
  | publishToSubscribers subscribers frame =>
    simp only [Services.run] at ran
    split at ran
    · obtain ⟨rfl, -⟩ := by simpa using ran
      exact frames_sendToPeer rfl receiving
    · simp at ran
  | backfillSend subscriber peer =>
    obtain ⟨rfl, -⟩ := by simpa [Services.run] using ran
    exact frames_sendToPeer rfl receiving
  | recv key connId =>
    obtain ⟨rfl, -⟩ := by simpa [Services.run] using ran
    refine (frames_mapEntries rfl ?_ ?_).trans (List.append_nil _).symm
    · intro entry
      split <;> rfl
    · intro entry
      split <;> rfl
  | close key connId =>
    obtain ⟨rfl, -⟩ := by simpa [Services.run] using ran
    refine (frames_mapEntries rfl ?_ ?_).trans (List.append_nil _).symm
    · intro entry
      split <;> rfl
    · intro entry
      split <;> rfl
  | applyPatch peerId roomId patch =>
    simp only [Services.run] at ran
    split at ran
    · obtain ⟨rfl, -⟩ := by simpa using ran
      exact (List.append_nil _).symm
    · obtain ⟨rfl, -⟩ := by simpa using ran
      exact (List.append_nil _).symm
  | _ =>
    obtain ⟨rfl, -⟩ := by simpa [Services.run] using ran
    exact (List.append_nil _).symm

/-- A connection that no operation ends stays in the table. -/
theorem entry_run (busy : s.tasks i = op :: rest)
    (ran : s.shared.run op choice = some (services, new))
    (present : (o.entry s.shared).isSome = true)
    (kept : o.isKept s (.advance i choice) = true) : (o.entry services).isSome = true := by
  obtain ⟨entry, found⟩ := Option.isSome_iff_exists.mp present
  -- operations on the entries that keep their ids
  have stays : ∀ f : RoomKey → ConnectionEntry ServerFrame → ConnectionEntry ServerFrame,
      (∀ entry, (f o.key entry).connId = entry.connId) →
      ((s.shared.connections.mapEntries f).entryOf o.key o.connId).isSome = true := by
    intro f named
    rw [ConnectionRegistry.entryOf_mapEntries f named, Option.isSome_map]
    exact present
  simp only [Observer.isKept, busy] at kept
  cases op with
  | connectionsInsert peerId room deviceId tx =>
    obtain ⟨rfl, -⟩ := by simpa [Services.run] using ran
    have other : o.key = (peerId, room.roomId) → entry.deviceId ≠ deviceId := by
      intro here
      simp only [here, bne_self_eq_false, Bool.false_or] at kept
      simpa [found] using kept
    simp [Observer.entry, ConnectionRegistry.entryOf_insert found other]
  | connectionsRemove peerId roomId connId nowMs teardown =>
    obtain ⟨rfl, -⟩ := by simpa [Services.run] using ran
    have other : o.key = (peerId, roomId) → o.connId ≠ connId := by
      intro here
      simpa [here] using kept
    simp [Observer.entry, ConnectionRegistry.entryOf_remove found other]
  | publishToSubscribers subscribers frame =>
    simp only [Services.run] at ran
    split at ran
    · obtain ⟨rfl, -⟩ := by simpa using ran
      rw [Observer.entry, ConnectionRegistry.entryOf_sendToPeer, Option.isSome_map]
      exact present
    · simp at ran
  | backfillSend subscriber peer =>
    obtain ⟨rfl, -⟩ := by simpa [Services.run] using ran
    rw [Observer.entry, ConnectionRegistry.entryOf_sendToPeer, Option.isSome_map]
    exact present
  | recv key connId =>
    obtain ⟨rfl, -⟩ := by simpa [Services.run] using ran
    refine stays _ ?_
    intro entry
    split <;> rfl
  | close key connId =>
    obtain ⟨rfl, -⟩ := by simpa [Services.run] using ran
    refine stays _ ?_
    intro entry
    split <;> rfl
  | applyPatch peerId roomId patch =>
    simp only [Services.run] at ran
    split at ran
    · obtain ⟨rfl, -⟩ := by simpa using ran
      exact present
    · obtain ⟨rfl, -⟩ := by simpa using ran
      exact present
  | _ =>
    obtain ⟨rfl, -⟩ := by simpa [Services.run] using ran
    exact present

/-- The peer of a connection in the table is online. -/
theorem isOnline_of_entry {services : Services} (present : (o.entry services).isSome = true) :
    services.connections.isOnline o.peer = true := by
  refine ConnectionRegistry.isOnline_iff_live.mpr ⟨o.room, ?_⟩
  intro none
  have empty : services.connections.entriesAt o.key = [] := none
  simp [Observer.entry, ConnectionRegistry.entryOf, empty] at present

end Frames

end OutpostPi.Relay

