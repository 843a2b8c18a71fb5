import Mathlib.Data.Finset.Basic
import OutpostPi.Lib.Map
import OutpostPi.Pi.OwnerChannel

/-!
# Offline buffers of the owner multiplexer

While an Owner is offline, the multiplexer buffers what it broadcasts, one completed turn
interval and the active one under caps on frames and bytes. When the Owner is back online the
buffer is flushed, in one synchronous loop, into its channel. A `SecurePeerChannel` has caps of
its own on accepted messages that wait for a sequence, and gives up when one is exceeded.

`muxMachine` runs the multiplexer with any number of Owners. `flush_fits_iff` says which of the
buffers that it can build fit the channel they are flushed into.
-/

set_option autoImplicit false

namespace OutpostPi.Pi

open OutpostPi.Lib

/-! ## Buffers -/

/-- A message for an Owner: its JSON text, absent when it cannot be serialized, and the key
under which a flushed compaction is remembered. -/
structure ServerMessage where
  json : Option String
  compactionKey : Option String
  deriving DecidableEq

/-- A buffered message with its size. -/
structure BufferedServerMessage where
  message : ServerMessage
  bytes : Nat
  deriving DecidableEq

/-- The buffer of one offline Owner. -/
structure OfflinePeerBuffer where
  completed : List BufferedServerMessage
  completedBytes : Nat
  current : List BufferedServerMessage
  currentBytes : Nat
  currentOverflowed : Bool

/-- How many frames a buffer holds. -/
def offlineBufferMaxFrames : Nat := 2048
/-- How many bytes a buffer holds. -/
def offlineBufferMaxBytes : Nat := 8 * 1024 * 1024
/-- How many flushed compactions of an Owner are remembered. -/
def flushedCompactionKeysMaxPerPeer : Nat := 128

/-- A buffer without messages. -/
def createOfflinePeerBuffer : OfflinePeerBuffer := ⟨[], 0, [], 0, false⟩

/-- The size of a message, if it can be serialized. -/
def serializedMessageBytes (message : ServerMessage) : Option Nat :=
  message.json.map String.utf8ByteSize

namespace OfflinePeerBuffer

/-- Add a message to the active interval. Under pressure the completed interval is dropped
first, and then the active one as a whole. -/
def bufferOfflineMessage (buffer : OfflinePeerBuffer) (message : ServerMessage) :
    OfflinePeerBuffer :=
  if buffer.currentOverflowed then buffer
  else
    let dropCurrent (buffer : OfflinePeerBuffer) : OfflinePeerBuffer :=
      { buffer with current := [], currentBytes := 0, currentOverflowed := true }
    let dropCompleted : OfflinePeerBuffer := { buffer with completed := [], completedBytes := 0 }
    match serializedMessageBytes message with
    | none => dropCurrent dropCompleted
    | some bytes =>
      let buffer :=
        if offlineBufferMaxFrames < buffer.completed.length + buffer.current.length + 1 ∨
            offlineBufferMaxBytes < buffer.completedBytes + buffer.currentBytes + bytes then
          dropCompleted
        else buffer
      if offlineBufferMaxFrames < buffer.current.length + 1 ∨
          offlineBufferMaxBytes < buffer.currentBytes + bytes then
        dropCurrent buffer
      else
        { buffer with
          current := buffer.current ++ [⟨message, bytes⟩]
          currentBytes := buffer.currentBytes + bytes }

/-- Seal the active interval at the end of a turn. -/
def completeOfflineTurn (buffer : OfflinePeerBuffer) : OfflinePeerBuffer :=
  let sealed :=
    if !buffer.currentOverflowed && 0 < buffer.current.length then
      { buffer with completed := buffer.current, completedBytes := buffer.currentBytes }
    else buffer
  { sealed with current := [], currentBytes := 0, currentOverflowed := false }

/-- Take the oldest frame. -/
def takeNextBufferedMessage (buffer : OfflinePeerBuffer) :
    Option (ServerMessage × OfflinePeerBuffer) :=
  match buffer.completed, buffer.current with
  | entry :: completed, _ =>
    some (entry.message,
      { buffer with
        completed := completed
        completedBytes := buffer.completedBytes - entry.bytes })
  | [], entry :: current =>
    some (entry.message,
      { buffer with current := current, currentBytes := buffer.currentBytes - entry.bytes })
  | [], [] => none

/-- The frames in the order in which they are taken. -/
def frames (buffer : OfflinePeerBuffer) : List BufferedServerMessage :=
  buffer.completed ++ buffer.current

end OfflinePeerBuffer

/-! ## The multiplexer -/

/-- The channels of the attached Owners, the Owners that the relay reports offline, their
buffers, and the compactions flushed to each Owner. -/
structure OwnerMultiplexer where
  channels : Map String Channel
  offlinePeerIds : Finset String
  offlineBuffers : Map String OfflinePeerBuffer
  flushedCompactionKeysByPeer : Map String (List String)

namespace OwnerMultiplexer

/-- An Owner goes for good. -/
def detach (mux : OwnerMultiplexer) (peerId : String) : OwnerMultiplexer :=
  if peerId ∈ mux.channels then
    { channels := mux.channels.erase peerId
      offlinePeerIds := mux.offlinePeerIds.erase peerId
      offlineBuffers := mux.offlineBuffers.erase peerId
      flushedCompactionKeysByPeer := mux.flushedCompactionKeysByPeer.erase peerId }
  else mux

/-- Replace the channel of an Owner by a fresh one. -/
def attach (mux : OwnerMultiplexer) (peerId : String) (channel : Channel) : OwnerMultiplexer :=
  let detached := mux.detach peerId
  { detached with channels := detached.channels.insert peerId channel }

/-- Take over the next state of a channel. A channel that disconnected has called back, and is
detached. -/
def settle (mux : OwnerMultiplexer) (peerId : String) (channel : Channel) : OwnerMultiplexer :=
  let kept := { mux with channels := mux.channels.insert peerId channel }
  if channel.disconnectNotified then kept.detach peerId else kept

/-- Hand a message to a channel. -/
def sendTo (mux : OwnerMultiplexer) (peerId : String) (channel : Channel)
    (message : ServerMessage) : OwnerMultiplexer :=
  match message.json with
  | none => mux
  | some json => mux.settle peerId (channel.send json)

/-- Buffer a message for an Owner. -/
def bufferOfflineMessage (mux : OwnerMultiplexer) (peerId : String) (message : ServerMessage) :
    OwnerMultiplexer :=
  let buffer := (mux.offlineBuffers.lookup peerId).getD createOfflinePeerBuffer
  { mux with
    offlineBuffers := mux.offlineBuffers.insert peerId (buffer.bufferOfflineMessage message) }

/-- Send a message to one attached Owner, or buffer it. -/
def fanOut (message : ServerMessage) (mux : OwnerMultiplexer) (peerId : String) :
    OwnerMultiplexer :=
  match mux.channels.lookup peerId with
  | none => mux
  | some channel =>
    if peerId ∈ mux.offlinePeerIds then mux.bufferOfflineMessage peerId message
    else mux.sendTo peerId channel message

/-- Send a message to every Owner, or buffer it. -/
def broadcast (mux : OwnerMultiplexer) (message : ServerMessage) : OwnerMultiplexer :=
  mux.channels.keys.foldl (fanOut message) mux

/-- A turn ends for every buffer. -/
def completeOfflineTurn (mux : OwnerMultiplexer) : OwnerMultiplexer :=
  { mux with
    offlineBuffers := mux.offlineBuffers.mapValues fun _ buffer => buffer.completeOfflineTurn }

/-- An attached Owner goes offline. -/
def markPeerOffline (mux : OwnerMultiplexer) (peerId : String) : OwnerMultiplexer :=
  if peerId ∉ mux.channels ∨ peerId ∈ mux.offlinePeerIds then mux
  else { mux with offlinePeerIds := insert peerId mux.offlinePeerIds }

/-- Remember the newest keys of flushed compactions. -/
def rememberFlushedCompaction (mux : OwnerMultiplexer) (peerId : String)
    (message : ServerMessage) : OwnerMultiplexer :=
  match message.compactionKey with
  | none => mux
  | some key =>
    let keys := (mux.flushedCompactionKeysByPeer.lookup peerId).getD []
    let added := if key ∈ keys then keys else keys ++ [key]
    { mux with
      flushedCompactionKeysByPeer := mux.flushedCompactionKeysByPeer.insert peerId
        (added.drop (added.length - flushedCompactionKeysMaxPerPeer)) }

/-- The flush loop, and the messages it hands over. It has one round for every buffered frame,
and ends early when the channel, the offline mark or the buffer is gone. Nothing attaches a
channel in the loop, so a channel that is there is the one it began with. -/
def flush (peerId : String) : Nat → OfflinePeerBuffer → OwnerMultiplexer →
    OwnerMultiplexer × List ServerMessage
  | 0, _, mux => (mux, [])
  | rounds + 1, buffer, mux =>
    match buffer.takeNextBufferedMessage, mux.channels.lookup peerId with
    | some (next, buffer), some channel =>
      if peerId ∈ mux.offlinePeerIds ∧ peerId ∈ mux.offlineBuffers then
        let mux := { mux with offlineBuffers := mux.offlineBuffers.insert peerId buffer }
        let mux := (mux.sendTo peerId channel next).rememberFlushedCompaction peerId next
        let rest := flush peerId rounds buffer mux
        (rest.1, next :: rest.2)
      else (mux, [])
    | _, _ => (mux, [])

/-- Flush the buffer of an Owner that is back online; the messages that were handed over. -/
def markPeerOnline (mux : OwnerMultiplexer) (peerId : String) :
    OwnerMultiplexer × List ServerMessage :=
  if peerId ∉ mux.offlinePeerIds then (mux, [])
  else
    let flushed :=
      match mux.channels.lookup peerId, mux.offlineBuffers.lookup peerId with
      | some _, some buffer => flush peerId buffer.frames.length buffer mux
      | _, _ => (mux, [])
    ({ flushed.1 with
        offlineBuffers := flushed.1.offlineBuffers.erase peerId
        offlinePeerIds := flushed.1.offlinePeerIds.erase peerId }, flushed.2)

/-- A session sync of an offline Owner replaces the flush. -/
def routeSessionSync (mux : OwnerMultiplexer) (peerId : String) : OwnerMultiplexer :=
  if peerId ∈ mux.offlinePeerIds then
    ({ mux with offlineBuffers := mux.offlineBuffers.erase peerId }.markPeerOnline peerId).1
  else mux

end OwnerMultiplexer

/-- What can happen to the multiplexer. A channel works on its own: it reserves sequences,
hands frames to the relay, receives, and may disconnect. -/
inductive MuxAction
  | attach (process : Nat) (peerId : String) (peerRecord : Json)
  | detach (peerId : String)
  | channelWork (peerId : String) (channel : Channel)
  | broadcast (message : ServerMessage)
  | completeOfflineTurn
  | peerOffline (peerId : String)
  | peerOnline (peerId : String)
  | sessionSync (peerId : String)

/-- One multiplexer with any number of Owners. -/
def muxMachine : Machine OwnerMultiplexer MuxAction where
  Init mux := mux = ⟨∅, ∅, ∅, ∅⟩
  step mux
    | .attach process peerId peerRecord =>
      (createPeerChannel process peerId peerRecord).map (mux.attach peerId)
    | .detach peerId => some (mux.detach peerId)
    | .channelWork peerId channel =>
      if peerId ∈ mux.channels ∧ channel.detached = channel.disconnectNotified then
        some (mux.settle peerId channel)
      else none
    | .broadcast message => some (mux.broadcast message)
    | .completeOfflineTurn => some mux.completeOfflineTurn
    | .peerOffline peerId => some (mux.markPeerOffline peerId)
    | .peerOnline peerId => some (mux.markPeerOnline peerId).1
    | .sessionSync peerId => some (mux.routeSessionSync peerId)

/-! ## Buffers within their caps -/

/-- What holds of every buffer: the byte counts are exact, both caps are met by both intervals
together, and every frame has been serialized. -/
structure BufferInvariant (buffer : OfflinePeerBuffer) : Prop where
  completedBytes : buffer.completedBytes = (buffer.completed.map BufferedServerMessage.bytes).sum
  currentBytes : buffer.currentBytes = (buffer.current.map BufferedServerMessage.bytes).sum
  maxFrames : buffer.completed.length + buffer.current.length ≤ offlineBufferMaxFrames
  maxBytes : buffer.completedBytes + buffer.currentBytes ≤ offlineBufferMaxBytes
  serialized : ∀ entry ∈ buffer.frames, serializedMessageBytes entry.message = some entry.bytes

namespace BufferInvariant

variable {buffer : OfflinePeerBuffer}

/-- An empty buffer is within its bounds. -/
theorem create : BufferInvariant createOfflinePeerBuffer where
  completedBytes := rfl
  currentBytes := rfl
  maxFrames := by decide
  maxBytes := by decide
  serialized _ mem := by cases mem

/-- Dropping the completed turns keeps the bounds. -/
theorem dropCompleted (inv : BufferInvariant buffer) :
    BufferInvariant { buffer with completed := [], completedBytes := 0 } where
  completedBytes := rfl
  currentBytes := inv.currentBytes
  maxFrames := le_trans (by simp) inv.maxFrames
  maxBytes := le_trans (by simp) inv.maxBytes
  serialized entry mem := inv.serialized entry (List.mem_append_right _ mem)

/-- Dropping the turn in hand keeps the bounds. -/
theorem dropCurrent (inv : BufferInvariant buffer) :
    BufferInvariant { buffer with current := [], currentBytes := 0, currentOverflowed := true } where
  completedBytes := inv.completedBytes
  currentBytes := rfl
  maxFrames := le_trans (by simp) inv.maxFrames
  maxBytes := le_trans (by simp) inv.maxBytes
  serialized entry mem := by
    apply inv.serialized entry
    rw [OfflinePeerBuffer.frames, List.append_nil] at mem
    exact List.mem_append_left _ mem

/-- One more message keeps the bounds, if it fits. -/
theorem push {message : ServerMessage} {bytes : Nat} (inv : BufferInvariant buffer)
    (serializes : serializedMessageBytes message = some bytes)
    (frames : buffer.completed.length + buffer.current.length + 1 ≤ offlineBufferMaxFrames)
    (size : buffer.completedBytes + buffer.currentBytes + bytes ≤ offlineBufferMaxBytes) :
    BufferInvariant { buffer with
      current := buffer.current ++ [⟨message, bytes⟩]
      currentBytes := buffer.currentBytes + bytes } where
  completedBytes := inv.completedBytes
  currentBytes := by simp [inv.currentBytes]
  maxFrames := by simpa [Nat.add_assoc] using frames
  maxBytes := by simpa [Nat.add_assoc] using size
  serialized entry mem := by
    rw [OfflinePeerBuffer.frames, ← List.append_assoc, List.mem_append] at mem
    rcases mem with before | new
    · exact inv.serialized entry before
    · rw [List.mem_singleton.mp new]
      exact serializes

/-- Buffering any message keeps the bounds. -/
theorem bufferOfflineMessage (inv : BufferInvariant buffer) (message : ServerMessage) :
    BufferInvariant (buffer.bufferOfflineMessage message) := by
  rw [OfflinePeerBuffer.bufferOfflineMessage]
  split
  · exact inv
  · dsimp only
    split
    · exact inv.dropCompleted.dropCurrent
    · next bytes serializes =>
      by_cases exceeds : offlineBufferMaxFrames <
            buffer.completed.length + buffer.current.length + 1 ∨
          offlineBufferMaxBytes < buffer.completedBytes + buffer.currentBytes + bytes
      · simp only [if_pos exceeds]
        split
        · exact inv.dropCompleted.dropCurrent
        · next fits =>
          rw [not_or, Nat.not_lt, Nat.not_lt] at fits
          exact inv.dropCompleted.push serializes (by simpa using fits.1) (by simpa using fits.2)
      · simp only [if_neg exceeds]
        rw [not_or, Nat.not_lt, Nat.not_lt] at exceeds
        split
        · exact inv.dropCurrent
        · exact inv.push serializes exceeds.1 exceeds.2

/-- Completing the turn in hand keeps the bounds. -/
theorem completeOfflineTurn (inv : BufferInvariant buffer) :
    BufferInvariant buffer.completeOfflineTurn := by
  rw [OfflinePeerBuffer.completeOfflineTurn]
  split
  · constructor
    · exact inv.currentBytes
    · rfl
    · exact le_trans (by simp) inv.maxFrames
    · exact le_trans (by simp) inv.maxBytes
    · intro entry mem
      apply inv.serialized entry
      rw [OfflinePeerBuffer.frames, List.append_nil] at mem
      exact List.mem_append_right _ mem
  · exact ⟨inv.completedBytes, rfl, le_trans (by simp) inv.maxFrames,
      le_trans (by simp) inv.maxBytes, inv.dropCurrent.serialized⟩

/-- Taking a frame takes the oldest one. -/
theorem takeNext_cons (inv : BufferInvariant buffer) {entry : BufferedServerMessage}
    {rest : List BufferedServerMessage} (frames : buffer.frames = entry :: rest) :
    ∃ buffer', buffer.takeNextBufferedMessage = some (entry.message, buffer') ∧
      buffer'.frames = rest ∧ BufferInvariant buffer' := by
  obtain ⟨completed, completedBytes, current, currentBytes, overflowed⟩ := buffer
  have exact := inv.completedBytes
  have exact' := inv.currentBytes
  have bound := inv.maxFrames
  have size := inv.maxBytes
  have serialized := inv.serialized
  cases completed with
  | cons oldest completed =>
    obtain ⟨rfl, rfl⟩ : oldest = entry ∧ completed ++ current = rest := by
      simpa [OfflinePeerBuffer.frames] using frames
    refine ⟨_, rfl, rfl, ?_⟩
    simp only [List.map_cons, List.sum_cons, List.length_cons] at exact bound size
    refine ⟨?_, exact', ?_, ?_, fun later mem => serialized later (List.mem_cons_of_mem _ mem)⟩
    · dsimp only
      omega
    · dsimp only
      omega
    · dsimp only
      omega
  | nil =>
    cases current with
    | nil => cases frames
    | cons oldest current =>
      obtain ⟨rfl, rfl⟩ : oldest = entry ∧ current = rest := by
        simpa [OfflinePeerBuffer.frames] using frames
      refine ⟨_, rfl, rfl, ?_⟩
      simp only [List.map_cons, List.sum_cons, List.length_cons] at exact' bound size
      refine ⟨exact, ?_, ?_, ?_, fun later mem => serialized later (List.mem_cons_of_mem _ mem)⟩
      · dsimp only
        omega
      · dsimp only
        omega
      · dsimp only
        omega

/-- What is left when a frame is taken is within the caps. -/
theorem of_taken {buffer' : OfflinePeerBuffer} {message : ServerMessage}
    (inv : BufferInvariant buffer)
    (taken : buffer.takeNextBufferedMessage = some (message, buffer')) :
    BufferInvariant buffer' := by
  cases frames : buffer.frames with
  | nil =>
    obtain ⟨none, none'⟩ := List.append_eq_nil_iff.mp frames
    simp [OfflinePeerBuffer.takeNextBufferedMessage, none, none'] at taken
  | cons entry rest =>
    obtain ⟨left, taken', -, valid⟩ := inv.takeNext_cons frames
    rw [taken'] at taken
    cases taken
    exact valid

end BufferInvariant

/-! ## The multiplexer in any run -/

/-- Every attached channel is open, and every buffer is within its caps. -/
structure MuxInvariant (mux : OwnerMultiplexer) : Prop where
  opened : ∀ peerId channel, mux.channels.lookup peerId = some channel →
    channel.detached = false ∧ channel.disconnectNotified = false
  buffers : ∀ peerId buffer, mux.offlineBuffers.lookup peerId = some buffer →
    BufferInvariant buffer

/-- An entry after an insertion is the new one or an old one. -/
theorem lookup_insert_cases {ν : Type} {m : Map String ν} {k k' : String} {value value' : ν}
    (found : (m.insert k value).lookup k' = some value') :
    (k' = k ∧ value = value') ∨ m.lookup k' = some value' := by
  by_cases same : k' = k
  · subst same
    rw [AList.lookup_insert] at found
    exact .inl ⟨rfl, Option.some.inj found⟩
  · rw [AList.lookup_insert_ne same] at found
    exact .inr found

namespace MuxInvariant

variable {mux : OwnerMultiplexer} {peerId : String} {message : ServerMessage}

/-- Detaching an owner keeps the invariant. -/
theorem detach (inv : MuxInvariant mux) (peerId : String) : MuxInvariant (mux.detach peerId) := by
  rw [OwnerMultiplexer.detach]
  split
  · exact ⟨fun p channel found => inv.opened p channel (Map.lookup_of_erase found),
      fun p buffer found => inv.buffers p buffer (Map.lookup_of_erase found)⟩
  · exact inv

variable {channel : Channel}

/-- A freshly opened channel keeps the invariant. -/
theorem insert (inv : MuxInvariant mux)
    (opened : channel.detached = false ∧ channel.disconnectNotified = false) :
    MuxInvariant { mux with channels := mux.channels.insert peerId channel } where
  opened p other found := by
    rcases lookup_insert_cases found with ⟨-, rfl⟩ | before
    · exact opened
    · exact inv.opened p other before
  buffers := inv.buffers

/-- Storing a buffer within its bounds keeps the invariant. -/
theorem setBuffer {buffer : OfflinePeerBuffer} (inv : MuxInvariant mux)
    (valid : BufferInvariant buffer) :
    MuxInvariant { mux with offlineBuffers := mux.offlineBuffers.insert peerId buffer } where
  opened := inv.opened
  buffers p other found := by
    rcases lookup_insert_cases found with ⟨-, rfl⟩ | before
    · exact valid
    · exact inv.buffers p other before

/-- Settling a channel keeps the invariant. -/
theorem settle (inv : MuxInvariant mux) (flags : channel.detached = channel.disconnectNotified) :
    MuxInvariant (mux.settle peerId channel) := by
  rw [OwnerMultiplexer.settle]
  split
  · next gone =>
    rw [OwnerMultiplexer.detach, if_pos (Map.mem_iff_lookup.mpr ⟨channel, AList.lookup_insert _⟩)]
    refine ⟨fun p other found => ?_, fun p buffer found =>
      inv.buffers p buffer (Map.lookup_of_erase found)⟩
    by_cases same : p = peerId
    · subst same
      rw [AList.lookup_erase] at found
      cases found
    · rw [AList.lookup_erase_ne same, AList.lookup_insert_ne same] at found
      exact inv.opened p other found
  · next stays =>
    rw [Bool.not_eq_true] at stays
    exact inv.insert ⟨flags.trans stays, stays⟩

/-- A channel is created attached. -/
theorem opened_createPeerChannel {process : Nat} {peerRecord : Json}
    (created : createPeerChannel process peerId peerRecord = some channel) :
    channel.detached = false ∧ channel.disconnectNotified = false := by
  rw [createPeerChannel] at created
  split at created
  · split at created
    · cases created
    · cases created
      exact ⟨rfl, rfl⟩
  · cases created

/-- A channel that was open is detached exactly when it disconnected. -/
theorem flags_send (opened : channel.detached = false ∧ channel.disconnectNotified = false)
    (json : String) : (channel.send json).detached = (channel.send json).disconnectNotified := by
  rw [Channel.send]
  split
  · rw [opened.1, opened.2]
  · split
    · simp [Channel.disconnect, Channel.detach, opened.1, opened.2]
    · exact opened.1.trans opened.2.symm

/-- Sending to one owner keeps the invariant. -/
theorem sendTo (inv : MuxInvariant mux) (attached : mux.channels.lookup peerId = some channel) :
    MuxInvariant (mux.sendTo peerId channel message) := by
  rw [OwnerMultiplexer.sendTo]
  split
  · exact inv
  · next json serialized => exact inv.settle (flags_send (inv.opened _ _ attached) json)

/-- Handing a message to one owner, sent or buffered, keeps the invariant. -/
theorem fanOut (inv : MuxInvariant mux) : MuxInvariant (mux.fanOut message peerId) := by
  rw [OwnerMultiplexer.fanOut]
  split
  · exact inv
  · next channel attached =>
    split
    · apply inv.setBuffer
      apply BufferInvariant.bufferOfflineMessage
      cases found : mux.offlineBuffers.lookup peerId with
      | none => exact BufferInvariant.create
      | some buffer => exact inv.buffers _ _ found
    · exact inv.sendTo attached

/-- Noting the compactions that were flushed keeps the invariant. -/
theorem remember (inv : MuxInvariant mux) :
    MuxInvariant (mux.rememberFlushedCompaction peerId message) := by
  rw [OwnerMultiplexer.rememberFlushedCompaction]
  split
  · exact inv
  · exact ⟨inv.opened, inv.buffers⟩

/-- A broadcast keeps the invariant. -/
theorem broadcast (inv : MuxInvariant mux) : MuxInvariant (mux.broadcast message) := by
  rw [OwnerMultiplexer.broadcast]
  generalize mux.channels.keys = peerIds
  induction peerIds generalizing mux with
  | nil => exact inv
  | cons peerId peerIds ih => exact ih inv.fanOut

/-- Completing the turns of all buffers keeps the invariant. -/
theorem completeOfflineTurn (inv : MuxInvariant mux) : MuxInvariant mux.completeOfflineTurn where
  opened := inv.opened
  buffers p buffer found := by
    rw [OwnerMultiplexer.completeOfflineTurn, Map.lookup_mapValues] at found
    obtain ⟨before, was, rfl⟩ := Option.map_eq_some_iff.mp found
    exact (inv.buffers p before was).completeOfflineTurn

/-- A flush keeps the invariant, however far it gets. -/
theorem flush {rounds : Nat} {buffer : OfflinePeerBuffer} (inv : MuxInvariant mux)
    (valid : BufferInvariant buffer) :
    MuxInvariant (OwnerMultiplexer.flush peerId rounds buffer mux).1 := by
  induction rounds generalizing mux buffer with
  | zero => exact inv
  | succ rounds ih =>
    rw [OwnerMultiplexer.flush]
    split
    · next next buffer' channel taken attached =>
      have valid' := valid.of_taken taken
      split
      · exact ih ((inv.setBuffer valid').sendTo attached).remember valid'
      · exact inv
    · exact inv

/-- Marking an owner online keeps the invariant. -/
theorem markPeerOnline (inv : MuxInvariant mux) : MuxInvariant (mux.markPeerOnline peerId).1 := by
  rw [OwnerMultiplexer.markPeerOnline]
  split
  · exact inv
  · have cleared : ∀ mux : OwnerMultiplexer, MuxInvariant mux → MuxInvariant { mux with
        offlineBuffers := mux.offlineBuffers.erase peerId
        offlinePeerIds := mux.offlinePeerIds.erase peerId } := fun mux inv =>
      ⟨inv.opened, fun p buffer found => inv.buffers p buffer (Map.lookup_of_erase found)⟩
    split
    · next channel buffer attached buffered => exact cleared _ (inv.flush (inv.buffers _ _ buffered))
    · exact cleared _ inv

/-- Every step keeps the invariant. -/
theorem step {mux' : OwnerMultiplexer} {a : MuxAction} (inv : MuxInvariant mux)
    (taken : muxMachine.step mux a = some mux') : MuxInvariant mux' := by
  cases a with
  | attach process peerId peerRecord =>
    obtain ⟨channel, created, rfl⟩ := Option.map_eq_some_iff.mp taken
    exact (inv.detach peerId).insert (opened_createPeerChannel created)
  | detach peerId =>
    cases taken
    exact inv.detach peerId
  | channelWork peerId channel =>
    simp only [muxMachine] at taken
    obtain ⟨works, rfl⟩ := Machine.of_guard taken
    exact inv.settle works.2
  | broadcast message =>
    cases taken
    exact inv.broadcast
  | completeOfflineTurn =>
    cases taken
    exact inv.completeOfflineTurn
  | peerOffline peerId =>
    cases taken
    rw [OwnerMultiplexer.markPeerOffline]
    split
    · exact inv
    · exact ⟨inv.opened, inv.buffers⟩
  | peerOnline peerId =>
    cases taken
    exact inv.markPeerOnline
  | sessionSync peerId =>
    cases taken
    rw [OwnerMultiplexer.routeSessionSync]
    split
    · apply markPeerOnline
      exact ⟨inv.opened, fun p buffer found => inv.buffers p buffer (Map.lookup_of_erase found)⟩
    · exact inv

/-- The invariant holds in every reachable state. -/
theorem reachable (reached : muxMachine.Reachable mux) : MuxInvariant mux := by
  apply Machine.ReachableUnder.invariant (I := MuxInvariant) _ _ reached
  · rintro s rfl
    exact ⟨fun _ _ found => (by cases found), fun _ _ found => (by cases found)⟩
  · intro s a s' inv _ taken
    exact inv.step taken

end MuxInvariant

/-! ## The flush -/

namespace OwnerMultiplexer

variable {mux : OwnerMultiplexer} {peerId : String} {channel : Channel}
  {buffer : OfflinePeerBuffer}

/-- Noting flushed compactions leaves the channels. -/
@[simp] theorem channels_remember (mux : OwnerMultiplexer) (peerId : String)
    (message : ServerMessage) :
    (mux.rememberFlushedCompaction peerId message).channels = mux.channels := by
  rw [rememberFlushedCompaction]
  split <;> rfl

/-- Noting flushed compactions leaves the offline owners. -/
@[simp] theorem offlinePeerIds_remember (mux : OwnerMultiplexer) (peerId : String)
    (message : ServerMessage) :
    (mux.rememberFlushedCompaction peerId message).offlinePeerIds = mux.offlinePeerIds := by
  rw [rememberFlushedCompaction]
  split <;> rfl

/-- Noting flushed compactions leaves the buffers. -/
@[simp] theorem offlineBuffers_remember (mux : OwnerMultiplexer) (peerId : String)
    (message : ServerMessage) :
    (mux.rememberFlushedCompaction peerId message).offlineBuffers = mux.offlineBuffers := by
  rw [rememberFlushedCompaction]
  split <;> rfl

/-- The multiplexer after one round of the loop. -/
def afterRound (mux : OwnerMultiplexer) (peerId : String) (channel : Channel)
    (buffer : OfflinePeerBuffer) (message : ServerMessage) : OwnerMultiplexer :=
  ({ mux with offlineBuffers := mux.offlineBuffers.insert peerId buffer }.sendTo peerId channel
    message).rememberFlushedCompaction peerId message

/-- One round hands over the oldest frame. -/
theorem flush_cons {entry : BufferedServerMessage} {rest : List BufferedServerMessage}
    (valid : BufferInvariant buffer) (frames : buffer.frames = entry :: rest)
    (attached : mux.channels.lookup peerId = some channel) (offline : peerId ∈ mux.offlinePeerIds)
    (buffered : peerId ∈ mux.offlineBuffers) :
    ∃ buffer', buffer'.frames = rest ∧ BufferInvariant buffer' ∧
      flush peerId buffer.frames.length buffer mux =
        ((flush peerId buffer'.frames.length buffer'
            (mux.afterRound peerId channel buffer' entry.message)).1,
          entry.message :: (flush peerId buffer'.frames.length buffer'
            (mux.afterRound peerId channel buffer' entry.message)).2) := by
  obtain ⟨buffer', taken, rfl, valid'⟩ := valid.takeNext_cons frames
  refine ⟨buffer', rfl, valid', ?_⟩
  rw [frames, List.length_cons, flush, taken, attached]
  simp only [if_pos (And.intro offline buffered)]
  rfl

/-- With its channel gone the loop ends. -/
theorem flush_of_gone {rounds : Nat} (gone : mux.channels.lookup peerId = none) :
    flush peerId rounds buffer mux = (mux, []) := by
  cases rounds with
  | zero => rfl
  | succ rounds =>
    rw [flush, gone]
    split
    · next taken absent => cases absent
    · rfl

/-- A frame that fits is appended to what the channel accepted. -/
theorem afterRound_of_fits (mux : OwnerMultiplexer) (peerId : String)
    (buffer' : OfflinePeerBuffer) {message : ServerMessage} {json : String}
    (opened : channel.detached = false ∧ channel.disconnectNotified = false)
    (serialized : message.json = some json)
    (frames : channel.outbound.length < maxPendingOwnerOutboundFrames)
    (size : json.utf8ByteSize ≤ maxPendingOwnerOutboundBytes - channel.pendingOutboundBytes) :
    (mux.afterRound peerId channel buffer' message).channels =
        mux.channels.insert peerId { channel with outbound := channel.outbound ++ [json] } ∧
      (mux.afterRound peerId channel buffer' message).offlinePeerIds = mux.offlinePeerIds ∧
      (mux.afterRound peerId channel buffer' message).offlineBuffers =
        mux.offlineBuffers.insert peerId buffer' := by
  have accepts : channel.send json = { channel with outbound := channel.outbound ++ [json] } := by
    rw [Channel.send, opened.1, if_neg (by simp), if_neg]
    omega
  rw [afterRound, sendTo, serialized]
  simp only [accepts, settle, opened.2, channels_remember, offlinePeerIds_remember,
    offlineBuffers_remember, Bool.false_eq_true, if_false, and_self]

/-- A frame beyond a cap makes the channel disconnect, which detaches it. -/
theorem afterRound_of_overflow (mux : OwnerMultiplexer) (peerId : String)
    (buffer' : OfflinePeerBuffer) {message : ServerMessage} {json : String}
    (opened : channel.detached = false ∧ channel.disconnectNotified = false)
    (serialized : message.json = some json)
    (overflow : maxPendingOwnerOutboundFrames ≤ channel.outbound.length ∨
      maxPendingOwnerOutboundBytes - channel.pendingOutboundBytes < json.utf8ByteSize) :
    (mux.afterRound peerId channel buffer' message).channels.lookup peerId = none := by
  have gone : (channel.send json).disconnectNotified = true := by
    rw [Channel.send, opened.1, if_neg (by simp), if_pos overflow]
    simp [Channel.disconnect, Channel.detach, opened.1, opened.2]
  rw [afterRound, sendTo, serialized, channels_remember]
  simp only [settle, gone, if_true]
  rw [detach, if_pos (Map.mem_iff_lookup.mpr ⟨_, AList.lookup_insert _⟩)]
  exact AList.lookup_erase _ _

/-- What the loop does to a channel that is about to be given the frames: it accepts them all
when they fit its cap on frames, and is detached otherwise. -/
theorem flush_result {frames : List BufferedServerMessage} (valid : BufferInvariant buffer)
    (is : buffer.frames = frames) (attached : mux.channels.lookup peerId = some channel)
    (opened : channel.detached = false ∧ channel.disconnectNotified = false)
    (offline : peerId ∈ mux.offlinePeerIds) (buffered : peerId ∈ mux.offlineBuffers)
    (size : channel.pendingOutboundBytes + (frames.map BufferedServerMessage.bytes).sum ≤
      maxPendingOwnerOutboundBytes) :
    (channel.outbound.length + frames.length ≤ maxPendingOwnerOutboundFrames →
      (flush peerId buffer.frames.length buffer mux).2 = frames.map BufferedServerMessage.message ∧
      ∃ channel', (flush peerId buffer.frames.length buffer mux).1.channels.lookup peerId =
          some channel' ∧
        channel'.detached = false ∧
        channel'.outbound.map some =
          channel.outbound.map some ++ frames.map fun entry => entry.message.json) ∧
    (channel.outbound.length ≤ maxPendingOwnerOutboundFrames →
      maxPendingOwnerOutboundFrames < channel.outbound.length + frames.length →
      (flush peerId buffer.frames.length buffer mux).1.channels.lookup peerId = none) := by
  -- one round of the flush takes one frame
  induction frames generalizing buffer mux channel with
  | nil =>
    rw [is]
    refine ⟨fun _ => ⟨rfl, channel, attached, opened.1, by simp⟩, fun most more => ?_⟩
    rw [List.length_nil] at more
    omega
  | cons entry rest ih =>
    obtain ⟨buffer', rfl, valid', round⟩ :=
      flush_cons valid is attached offline buffered
    rw [round]
    have serialized := valid.serialized entry (is ▸ List.mem_cons_self)
    obtain ⟨json, text, bytes⟩ := Option.map_eq_some_iff.mp serialized
    rw [List.map_cons, List.sum_cons] at size
    by_cases room : channel.outbound.length < maxPendingOwnerOutboundFrames
    -- the frame fits, and the channel stays attached
    · obtain ⟨channels, offlines, buffers⟩ := afterRound_of_fits mux peerId buffer' opened text
        room (by omega)
      have accepted : (mux.afterRound peerId channel buffer' entry.message).channels.lookup peerId =
          some { channel with outbound := channel.outbound ++ [json] } := by
        rw [channels, AList.lookup_insert]
      have next := ih valid' rfl accepted opened (by rw [offlines]; exact offline)
        (by rw [buffers]; exact Map.mem_iff_lookup.mpr ⟨_, AList.lookup_insert _⟩)
        (by simp [Channel.pendingOutboundBytes] at size ⊢; omega)
      simp only [List.length_append, List.length_cons, List.length_nil] at next ⊢
      constructor
      · intro fits
        obtain ⟨handed, channel', attached', opened', accepted⟩ := next.1 (by omega)
        refine ⟨by simp [handed], channel', attached', opened', ?_⟩
        simp [accepted, text]
      · intro most more
        exact next.2 (by omega) (by omega)
    -- the channel is full and is given up
    · have gone := afterRound_of_overflow mux peerId buffer' opened text
        (Or.inl (Nat.le_of_not_lt room))
      rw [List.length_cons]
      refine ⟨fun fits => by omega, fun _ _ => ?_⟩
      rw [flush_of_gone gone]
      exact gone

/-- The flush hands every buffered message to the channel in order, and the channel accepts
every one of them. -/
def FlushFits (mux : OwnerMultiplexer) (peerId : String) (buffer : OfflinePeerBuffer) : Prop :=
  (mux.markPeerOnline peerId).2 = buffer.frames.map BufferedServerMessage.message ∧
  ∃ channel, (mux.markPeerOnline peerId).1.channels.lookup peerId = some channel ∧
    channel.detached = false ∧
    channel.outbound.map some = buffer.frames.map fun entry => entry.message.json

/-- For any multiplexer within its invariant, the frames alone decide. -/
theorem fits_iff_of_invariant (inv : MuxInvariant mux)
    (attached : mux.channels.lookup peerId = some channel) (idle : channel.outbound = [])
    (offline : peerId ∈ mux.offlinePeerIds)
    (buffered : mux.offlineBuffers.lookup peerId = some buffer) :
    mux.FlushFits peerId buffer ↔ buffer.frames.length ≤ maxPendingOwnerOutboundFrames := by
  have valid := inv.buffers _ _ buffered
  have bytes : (buffer.frames.map BufferedServerMessage.bytes).sum ≤ offlineBufferMaxBytes := by
    rw [OfflinePeerBuffer.frames, List.map_append, List.sum_append, ← valid.completedBytes,
      ← valid.currentBytes]
    exact valid.maxBytes
  have caps : offlineBufferMaxBytes ≤ maxPendingOwnerOutboundBytes := by decide
  obtain ⟨fits, overflows⟩ := flush_result valid rfl attached (inv.opened _ _ attached) offline
    (Map.mem_iff_lookup.mpr ⟨_, buffered⟩)
    (by simp only [Channel.pendingOutboundBytes, idle, List.map_nil, List.sum_nil]; omega)
  simp only [idle, List.length_nil, Nat.zero_add, Nat.zero_le, true_implies, List.map_nil,
    List.nil_append] at fits overflows
  rw [FlushFits, markPeerOnline, if_neg (not_not.mpr offline), attached, buffered]
  constructor
  · rintro ⟨-, channel', stays, -⟩
    by_contra many
    rw [overflows (Nat.lt_of_not_le many)] at stays
    cases stays
  · intro few
    exact fits few

end OwnerMultiplexer

/-- A buffer that the multiplexer built is accepted by the idle channel it is flushed into
exactly when it has no more frames than the channel may have pending. -/
theorem flush_fits_iff {mux : OwnerMultiplexer} {peerId : String} {channel : Channel}
    {buffer : OfflinePeerBuffer} (reached : muxMachine.Reachable mux)
    (attached : mux.channels.lookup peerId = some channel) (idle : channel.outbound = [])
    (offline : peerId ∈ mux.offlinePeerIds)
    (buffered : mux.offlineBuffers.lookup peerId = some buffer) :
    mux.FlushFits peerId buffer ↔ buffer.frames.length ≤ maxPendingOwnerOutboundFrames :=
  OwnerMultiplexer.fits_iff_of_invariant (MuxInvariant.reachable reached) attached idle offline
    buffered

/-! ## Two buffers -/

/-- The stored record of an Owner. -/
def ownerRecord : Json :=
  .object [("channel_key", .string "key"), ("send_seq", .string "0"), ("recv_seq", .string "0")]

/-- A message of one letter. -/
def chunk : ServerMessage := ⟨some "c", none⟩

/-- An Owner is attached and goes offline. -/
def goesOffline : List MuxAction := [.attach 0 "owner" ownerRecord, .peerOffline "owner"]

/-- The buffer after a number of chunks. -/
def chunks (n : Nat) : OfflinePeerBuffer := ⟨[], 0, List.replicate n ⟨chunk, 1⟩, n, false⟩

/-- A chunk that finds room comes after the ones before it. -/
theorem bufferOfflineMessage_chunks {n : Nat} (room : n < offlineBufferMaxFrames) :
    (chunks n).bufferOfflineMessage chunk = chunks (n + 1) := by
  have bytes : serializedMessageBytes chunk = some 1 := rfl
  have frames : ¬ offlineBufferMaxFrames < n + 1 := Nat.not_lt.mpr room
  have size : ¬ offlineBufferMaxBytes < n + 1 := by
    have caps : offlineBufferMaxFrames ≤ offlineBufferMaxBytes := by decide
    omega
  rw [OfflinePeerBuffer.bufferOfflineMessage, if_neg (by simp [chunks]), bytes]
  simp [chunks, frames, size, List.replicate_succ']

/-- A broadcast chunk that finds room joins the buffer of the owner. -/
theorem broadcast_chunk {mux : OwnerMultiplexer} {channel : Channel} {n : Nat}
    (keys : mux.channels.keys = ["owner"]) (attached : mux.channels.lookup "owner" = some channel)
    (offline : "owner" ∈ mux.offlinePeerIds)
    (filled : (mux.offlineBuffers.lookup "owner").getD createOfflinePeerBuffer = chunks n)
    (room : n < offlineBufferMaxFrames) :
    mux.broadcast chunk =
      { mux with offlineBuffers := mux.offlineBuffers.insert "owner" (chunks (n + 1)) } := by
  rw [OwnerMultiplexer.broadcast, keys, List.foldl_cons, List.foldl_nil,
    OwnerMultiplexer.fanOut, attached]
  simp only [if_pos offline]
  rw [OwnerMultiplexer.bufferOfflineMessage, filled, bufferOfflineMessage_chunks room]

/-- Chunks for an offline Owner pile up to the cap of the buffer. -/
theorem reachable_chunks {n : Nat} (room : n ≤ offlineBufferMaxFrames) :
    ∃ mux channel, muxMachine.Reachable mux ∧ mux.channels.keys = ["owner"] ∧
      mux.channels.lookup "owner" = some channel ∧ channel.outbound = [] ∧
      "owner" ∈ mux.offlinePeerIds ∧
      (mux.offlineBuffers.lookup "owner").getD createOfflinePeerBuffer = chunks n ∧
      (0 < n → mux.offlineBuffers.lookup "owner" = some (chunks n)) := by
  induction n with
  | zero =>
    have ran : (muxMachine.exec ⟨∅, ∅, ∅, ∅⟩ goesOffline).any (fun mux =>
        decide (mux.channels.keys = ["owner"]) &&
        (mux.channels.lookup "owner").any (fun channel => decide (channel.outbound = [])) &&
        decide ("owner" ∈ mux.offlinePeerIds) &&
        (mux.offlineBuffers.lookup "owner").isNone) = true := by decide
    obtain ⟨mux, executed, facts⟩ := (Option.any_eq_true _ _).mp ran
    rw [Bool.and_eq_true, Bool.and_eq_true, Bool.and_eq_true, Option.any_eq_true,
      Option.isNone_iff_eq_none] at facts
    obtain ⟨⟨⟨keys, channel, attached, idle⟩, offline⟩, unbuffered⟩ := facts
    have reached := Machine.reachable_of_exec (M := muxMachine) rfl executed
    exact ⟨mux, channel, reached, of_decide_eq_true keys, attached, of_decide_eq_true idle,
      of_decide_eq_true offline, by rw [unbuffered]; rfl, fun pos => absurd pos (by simp)⟩
  | succ n ih =>
    obtain ⟨mux, channel, ⟨s₀, initial, run⟩, keys, attached, idle, offline, filled, -⟩ :=
      ih (Nat.le_of_succ_le room)
    have grown := broadcast_chunk keys attached offline filled room
    refine ⟨mux.broadcast chunk, channel,
      ⟨s₀, initial, run.tail (a := .broadcast chunk) trivial rfl⟩, ?_⟩
    rw [grown]
    refine ⟨keys, attached, idle, offline, ?_, fun _ => AList.lookup_insert _⟩
    rw [AList.lookup_insert]
    rfl

/-- A buffer of as many frames as the channel may have pending is accepted to the last one. -/
theorem flush_fits_iff_full :
    ∃ mux buffer, muxMachine.Reachable mux ∧ mux.offlineBuffers.lookup "owner" = some buffer ∧
      buffer.frames.length = maxPendingOwnerOutboundFrames ∧ mux.FlushFits "owner" buffer := by
  obtain ⟨mux, channel, reached, -, attached, idle, offline, -, buffered⟩ :=
    reachable_chunks (n := maxPendingOwnerOutboundFrames) (by decide)
  have buffered := buffered (by decide)
  have size : (chunks maxPendingOwnerOutboundFrames).frames.length =
      maxPendingOwnerOutboundFrames := by
    simp [OfflinePeerBuffer.frames, chunks]
  exact ⟨mux, _, reached, buffered, size,
    (flush_fits_iff reached attached idle offline buffered).mpr size.le⟩

/-- One frame more than the channel may have pending is within the caps of the buffer, and
its flush makes the channel disconnect. -/
theorem exists_flush_overflow :
    ∃ mux peerId channel buffer, muxMachine.Reachable mux ∧
      mux.channels.lookup peerId = some channel ∧ channel.outbound = [] ∧
      peerId ∈ mux.offlinePeerIds ∧ mux.offlineBuffers.lookup peerId = some buffer ∧
      ¬ mux.FlushFits peerId buffer := by
  obtain ⟨mux, channel, reached, -, attached, idle, offline, -, buffered⟩ :=
    reachable_chunks (n := maxPendingOwnerOutboundFrames + 1) (by decide)
  have buffered := buffered (by simp)
  refine ⟨mux, "owner", channel, _, reached, attached, idle, offline, buffered, ?_⟩
  rw [OwnerMultiplexer.fits_iff_of_invariant (MuxInvariant.reachable reached) attached idle offline
    buffered]
  simp [OfflinePeerBuffer.frames, chunks]

end OutpostPi.Pi
