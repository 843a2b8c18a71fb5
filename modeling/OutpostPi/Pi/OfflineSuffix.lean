import OutpostPi.Pi.OfflineBuffer

/-!
# What an offline buffer holds

`offlineMachine` runs the multiplexer with a log for every Owner: the messages broadcast since it
went offline, and the ends of turns among them. In every run the frames of a buffer are the last
messages of the log, from its beginning or from the end of a turn on.

A flush hands all of them over as long as the channel takes every frame but the last. A channel
that disconnects earlier ends the flush, and the rest of the buffer is lost.
-/

set_option autoImplicit false

namespace OutpostPi.Pi

open OutpostPi.Lib

/-! ## Logs -/

/-- What happens while an Owner is offline. -/
inductive OfflineMark
  | message (message : ServerMessage)
  | turn
  deriving DecidableEq

def OfflineMark.broadcast? : OfflineMark → Option ServerMessage
  | .message sent => some sent
  | .turn => none

/-- The messages broadcast while the Owner was offline. -/
def broadcasts (log : List OfflineMark) : List ServerMessage :=
  log.filterMap OfflineMark.broadcast?

/-- The messages are the last of the log, and start with the first of it or directly after the
end of a turn. -/
def SinceBoundary (log : List OfflineMark) (messages : List ServerMessage) : Prop :=
  ∃ before after, log = before ++ after ∧ broadcasts after = messages ∧
    (before = [] ∨ ∃ earlier, before = earlier ++ [.turn])

/-- The messages sent are a suffix of those broadcast, empty or from a boundary on. -/
def ExactSuffix (log : List OfflineMark) (sent : List ServerMessage) : Prop :=
  sent = [] ∨ SinceBoundary log sent

@[simp] theorem broadcasts_append (log log' : List OfflineMark) :
    broadcasts (log ++ log') = broadcasts log ++ broadcasts log' :=
  List.filterMap_append

/-- What is sent are the last messages of the log. -/
theorem ExactSuffix.isSuffix {log : List OfflineMark} {sent : List ServerMessage}
    (exact' : ExactSuffix log sent) : sent <:+ broadcasts log := by
  rcases exact' with rfl | ⟨before, after, rfl, rfl, -⟩
  · exact List.nil_suffix
  · rw [broadcasts_append]
    exact List.suffix_append _ _

namespace SinceBoundary

variable {log : List OfflineMark} {messages : List ServerMessage}

/-- A log without messages begins at its first mark. -/
theorem whole (none : broadcasts log = []) : SinceBoundary log [] :=
  ⟨[], log, rfl, none, Or.inl rfl⟩

/-- No message has followed the end of the turn. -/
theorem fresh (log : List OfflineMark) : SinceBoundary (log ++ [.turn]) [] :=
  ⟨log ++ [.turn], [], (List.append_nil _).symm, rfl, Or.inr ⟨log, rfl⟩⟩

/-- A message goes on from the same boundary. -/
theorem message (since : SinceBoundary log messages) (message : ServerMessage) :
    SinceBoundary (log ++ [.message message]) (messages ++ [message]) := by
  obtain ⟨before, after, rfl, rfl, boundary⟩ := since
  refine ⟨before, after ++ [.message message], List.append_assoc .., ?_, boundary⟩
  rw [broadcasts_append]
  rfl

/-- The end of a turn does not move the boundary. -/
theorem turn (since : SinceBoundary log messages) : SinceBoundary (log ++ [.turn]) messages := by
  obtain ⟨before, after, rfl, rfl, boundary⟩ := since
  refine ⟨before, after ++ [.turn], List.append_assoc .., ?_, boundary⟩
  rw [broadcasts_append]
  exact List.append_nil _

end SinceBoundary

/-! ## Buffers -/

/-- The messages of frames. -/
def messagesOf (frames : List BufferedServerMessage) : List ServerMessage :=
  frames.map BufferedServerMessage.message

/-- Both intervals together, and the active one alone, reach back to a boundary of the log, or
everything was dropped. -/
structure Contiguous (log : List OfflineMark) (buffer : OfflinePeerBuffer) : Prop where
  frames : buffer.currentOverflowed = false → SinceBoundary log (messagesOf buffer.frames)
  current : buffer.currentOverflowed = false → SinceBoundary log (messagesOf buffer.current)
  overflowed : buffer.currentOverflowed = true → buffer.frames = []

namespace Contiguous

variable {log : List OfflineMark} {buffer : OfflinePeerBuffer}

/-- A new buffer holds what a log without messages says. -/
theorem create (none : broadcasts log = []) : Contiguous log createOfflinePeerBuffer :=
  ⟨fun _ => .whole none, fun _ => .whole none, fun _ => rfl⟩

/-- What a buffer holds is a suffix of the log from a boundary on. -/
theorem exactSuffix (contiguous : Contiguous log buffer) :
    ExactSuffix log (messagesOf buffer.frames) := by
  cases overflowed : buffer.currentOverflowed with
  | false => exact Or.inr (contiguous.frames overflowed)
  | true =>
    rw [contiguous.overflowed overflowed]
    exact Or.inl rfl

/-- Add a frame, with or without the completed interval. -/
theorem push (contiguous : Contiguous log buffer) (kept : buffer.currentOverflowed = false)
    (message : ServerMessage) (bytes : Nat) :
    Contiguous (log ++ [.message message])
      { buffer with
        current := buffer.current ++ [⟨message, bytes⟩]
        currentBytes := buffer.currentBytes + bytes } := by
  refine ⟨fun _ => ?_, fun _ => ?_, fun overflowed => ?_⟩
  · have since := (contiguous.frames kept).message message
    rw [OfflinePeerBuffer.frames, messagesOf, ← List.append_assoc, List.map_append]
    exact since
  · have since := (contiguous.current kept).message message
    rw [messagesOf, List.map_append]
    exact since
  · cases kept.symm.trans overflowed

/-- The completed interval may be dropped as a whole. -/
theorem dropCompleted (contiguous : Contiguous log buffer)
    (kept : buffer.currentOverflowed = false) :
    Contiguous log { buffer with completed := [], completedBytes := 0 } :=
  ⟨contiguous.current, contiguous.current, fun overflowed => by cases kept.symm.trans overflowed⟩

/-- Everything is dropped, and nothing is kept until the end of the turn. -/
theorem drop (log : List OfflineMark) (completedBytes currentBytes : Nat) :
    Contiguous log ⟨[], completedBytes, [], currentBytes, true⟩ :=
  ⟨nofun, nofun, fun _ => rfl⟩

/-- A buffer that takes a message goes on with the log. -/
theorem bufferOfflineMessage (contiguous : Contiguous log buffer) (message : ServerMessage) :
    Contiguous (log ++ [.message message]) (buffer.bufferOfflineMessage message) := by
  rw [OfflinePeerBuffer.bufferOfflineMessage]
  split
  · next overflowed =>
    -- the rest of the turn is not kept
    refine ⟨fun kept => ?_, fun kept => ?_, contiguous.overflowed⟩
    · cases kept.symm.trans overflowed
    · cases kept.symm.trans overflowed
  next kept =>
  rw [Bool.not_eq_true] at kept
  dsimp only
  split
  · exact drop ..
  · next bytes serializes =>
    by_cases exceeds : offlineBufferMaxFrames <
          buffer.completed.length + buffer.current.length + 1 ∨
        offlineBufferMaxBytes < buffer.completedBytes + buffer.currentBytes + bytes
    · simp only [if_pos exceeds]
      split
      · exact drop ..
      · exact (contiguous.dropCompleted kept).push kept message bytes
    · -- what fits with the completed interval fits without it
      simp only [if_neg exceeds]
      rw [if_neg (by omega)]
      exact contiguous.push kept message bytes

/-- The active interval becomes the completed one, unless nothing or too much was in it. -/
theorem completeOfflineTurn (contiguous : Contiguous log buffer) :
    Contiguous (log ++ [.turn]) buffer.completeOfflineTurn := by
  refine ⟨fun _ => ?_, fun _ => .fresh log, nofun⟩
  rw [OfflinePeerBuffer.completeOfflineTurn]
  cases overflowed : buffer.currentOverflowed with
  | true =>
    have nothing := contiguous.overflowed overflowed
    rw [OfflinePeerBuffer.frames, List.append_eq_nil_iff] at nothing
    simp only [Bool.not_true, Bool.false_and, Bool.false_eq_true, if_false,
      OfflinePeerBuffer.frames, nothing.1]
    exact .fresh log
  | false =>
    simp only [Bool.not_false, Bool.true_and, decide_eq_true_eq]
    split
    · simp only [OfflinePeerBuffer.frames, List.append_nil]
      exact (contiguous.current overflowed).turn
    · next empty =>
      have since := (contiguous.frames overflowed).turn
      have nothing : buffer.current = [] := List.length_eq_zero_iff.mp (Nat.eq_zero_of_not_pos empty)
      rw [OfflinePeerBuffer.frames, nothing] at since
      exact since

end Contiguous

/-! ## The multiplexer with its logs -/

/-- The multiplexer, and what has happened since each Owner went offline. -/
structure OfflineWorld where
  mux : OwnerMultiplexer
  log : String → List OfflineMark

def OfflineWorld.note (w : OfflineWorld) : MuxAction → String → List OfflineMark
  | .broadcast message => fun peerId => w.log peerId ++ [.message message]
  | .completeOfflineTurn => fun peerId => w.log peerId ++ [.turn]
  | .peerOffline peerId =>
    if peerId ∉ w.mux.channels ∨ peerId ∈ w.mux.offlinePeerIds then w.log
    else Function.update w.log peerId []
  | _ => w.log

def offlineMachine : Machine OfflineWorld MuxAction where
  Init w := muxMachine.Init w.mux
  step w a := (muxMachine.step w.mux a).map fun mux => ⟨mux, w.note a⟩

/-- What the multiplexer knows of one Owner. -/
structure PeerView where
  attached : Bool
  offline : Bool
  buffer : Option OfflinePeerBuffer

/-- An Owner that is offline is attached, and its buffer holds what its log says. -/
structure PeerView.Logged (view : PeerView) (log : List OfflineMark) : Prop where
  attached : view.offline = true → view.attached = true
  buffered : view.offline = false → view.buffer = none
  contiguous : view.offline = true →
    Contiguous log (view.buffer.getD createOfflinePeerBuffer)

/-- The log of an Owner that is not offline does not matter. -/
theorem PeerView.Logged.relog {view : PeerView} {log : List OfflineMark} (logged : view.Logged log)
    (online : view.offline = false) (log' : List OfflineMark) : view.Logged log' :=
  ⟨logged.attached, logged.buffered, fun offline => by cases online.symm.trans offline⟩

namespace OwnerMultiplexer

variable {mux : OwnerMultiplexer} {peerId other : String} {message : ServerMessage}
  {channel : Channel} {log : List OfflineMark}

def view (mux : OwnerMultiplexer) (peerId : String) : PeerView where
  attached := (mux.channels.lookup peerId).isSome
  offline := decide (peerId ∈ mux.offlinePeerIds)
  buffer := mux.offlineBuffers.lookup peerId

/-! ### Other Owners -/

/-- Detaching an Owner concerns no other. -/
theorem view_detach_of_ne (differs : other ≠ peerId) :
    (mux.detach peerId).view other = mux.view other := by
  rw [detach]
  split
  · simp [view, differs]
  · rfl

theorem view_settle_of_ne (differs : other ≠ peerId) :
    (mux.settle peerId channel).view other = mux.view other := by
  have kept : ({ mux with channels := mux.channels.insert peerId channel }).view other =
      mux.view other := by
    simp [view, differs]
  rw [settle]
  split
  · exact (view_detach_of_ne differs).trans kept
  · exact kept

/-- A message to an Owner concerns no other. -/
theorem view_sendTo_of_ne (differs : other ≠ peerId) :
    (mux.sendTo peerId channel message).view other = mux.view other := by
  rw [sendTo]
  split
  · rfl
  · exact view_settle_of_ne differs

/-- The turn of an Owner in a broadcast concerns no other. -/
theorem view_fanOut_of_ne (differs : other ≠ peerId) :
    (mux.fanOut message peerId).view other = mux.view other := by
  rw [fanOut]
  split
  · rfl
  · split
    · exact congrArg (PeerView.mk _ _) (AList.lookup_insert_ne differs)
    · exact view_sendTo_of_ne differs

theorem view_remember : (mux.rememberFlushedCompaction peerId message).view other =
    mux.view other := by
  simp [view]

/-- A flush concerns its Owner only. -/
theorem view_flush_of_ne {rounds : Nat} {buffer : OfflinePeerBuffer} (differs : other ≠ peerId) :
    (flush peerId rounds buffer mux).1.view other = mux.view other := by
  induction rounds generalizing mux buffer with
  | zero => rfl
  | succ rounds ih =>
    rw [flush]
    split
    · split
      · refine ih.trans (view_remember.trans ((view_sendTo_of_ne differs).trans ?_))
        simp [view, differs]
      · rfl
    · rfl

theorem view_markPeerOnline_of_ne (differs : other ≠ peerId) :
    (mux.markPeerOnline peerId).1.view other = mux.view other := by
  have erased : ∀ mux : OwnerMultiplexer, ({ mux with
      offlineBuffers := mux.offlineBuffers.erase peerId
      offlinePeerIds := mux.offlinePeerIds.erase peerId }).view other = mux.view other := by
    intro mux
    simp [view, differs]
  rw [markPeerOnline]
  split
  · rfl
  · refine (erased _).trans ?_
    split
    · exact view_flush_of_ne differs
    · rfl

theorem view_attach_of_ne (differs : other ≠ peerId) :
    (mux.attach peerId channel).view other = mux.view other := by
  refine Eq.trans ?_ (view_detach_of_ne differs)
  exact congrArg (fun found : Option Channel => PeerView.mk found.isSome _ _)
    (AList.lookup_insert_ne differs)

/-! ### The Owner itself -/

/-- An Owner that is online or away has no buffer, and no log is asked for. -/
theorem logged_of_online (online : peerId ∉ mux.offlinePeerIds)
    (unbuffered : mux.offlineBuffers.lookup peerId = none) : (mux.view peerId).Logged log := by
  have is : (mux.view peerId).offline = false := decide_eq_false online
  refine ⟨fun offline => ?_, fun _ => unbuffered, fun offline => ?_⟩
  · cases is.symm.trans offline
  · cases is.symm.trans offline

/-- An Owner without a channel is neither offline nor buffered for. -/
theorem online_of_detached (logged : (mux.view peerId).Logged log)
    (away : peerId ∉ mux.channels) :
    peerId ∉ mux.offlinePeerIds ∧ mux.offlineBuffers.lookup peerId = none := by
  have online : peerId ∉ mux.offlinePeerIds := by
    intro offline
    have attached := logged.attached (decide_eq_true offline)
    exact away (AList.lookup_isSome.mp attached)
  exact ⟨online, logged.buffered (decide_eq_false online)⟩

/-- An Owner that is detached has no buffer. -/
theorem logged_detach (logged : (mux.view peerId).Logged log) :
    ((mux.detach peerId).view peerId).Logged log := by
  rw [detach]
  split
  · exact logged_of_online (by simp) (AList.lookup_erase ..)
  · exact logged

theorem logged_settle (logged : (mux.view peerId).Logged log) (attached : peerId ∈ mux.channels) :
    ((mux.settle peerId channel).view peerId).Logged log := by
  have kept : ({ mux with channels := mux.channels.insert peerId channel }).view peerId =
      mux.view peerId := by
    simp [view, AList.lookup_isSome.mpr attached]
  rw [settle]
  rw [← kept] at logged
  split
  · exact logged_detach logged
  · exact logged

theorem logged_sendTo (logged : (mux.view peerId).Logged log) (attached : peerId ∈ mux.channels) :
    ((mux.sendTo peerId channel message).view peerId).Logged log := by
  rw [sendTo]
  split
  · exact logged
  · exact logged_settle logged attached

theorem logged_attach (logged : (mux.view peerId).Logged log) :
    ((mux.attach peerId channel).view peerId).Logged log := by
  have online : peerId ∉ (mux.detach peerId).offlinePeerIds ∧
      (mux.detach peerId).offlineBuffers.lookup peerId = none := by
    rw [detach]
    split
    · exact ⟨by simp, AList.lookup_erase ..⟩
    · next away => exact online_of_detached logged away
  exact logged_of_online online.1 online.2

/-- An Owner that is back has no buffer. -/
theorem logged_markPeerOnline (logged : peerId ∉ mux.offlinePeerIds → (mux.view peerId).Logged log) :
    ((mux.markPeerOnline peerId).1.view peerId).Logged log := by
  rw [markPeerOnline]
  split
  · next online => exact logged online
  · exact logged_of_online (by simp) (AList.lookup_erase ..)

/-- An offline Owner gets the message into its buffer, an online one does not. -/
theorem logged_fanOut (logged : (mux.view peerId).Logged log) (attached : peerId ∈ mux.channels) :
    ((mux.fanOut message peerId).view peerId).Logged (log ++ [.message message]) := by
  obtain ⟨channel, found⟩ := Map.mem_iff_lookup.mp attached
  rw [fanOut, found]
  dsimp only
  split
  · next offline =>
    have contiguous := (logged.contiguous (decide_eq_true offline)).bufferOfflineMessage message
    refine ⟨fun _ => AList.lookup_isSome.mpr attached, fun online => ?_, fun _ => ?_⟩
    · cases (decide_eq_true offline).symm.trans online
    · rw [view, bufferOfflineMessage, AList.lookup_insert]
      exact contiguous
  · next online =>
    exact logged_sendTo (logged.relog (decide_eq_false online) _) attached

/-- A broadcast concerns the Owners that have a channel. -/
theorem view_broadcast_of_notMem {peerIds : List String} (missing : other ∉ peerIds) :
    (peerIds.foldl (fanOut message) mux).view other = mux.view other := by
  induction peerIds generalizing mux with
  | nil => rfl
  | cons peerId peerIds ih =>
    rw [List.mem_cons, not_or] at missing
    exact (ih missing.2).trans (view_fanOut_of_ne missing.1)

/-- A broadcast reaches every attached Owner once. -/
theorem logged_broadcast {peerIds : List String} (logged : (mux.view peerId).Logged log)
    (attached : peerId ∈ mux.channels) (distinct : peerIds.Nodup) (mem : peerId ∈ peerIds) :
    ((peerIds.foldl (fanOut message) mux).view peerId).Logged (log ++ [.message message]) := by
  induction peerIds generalizing mux with
  | nil => cases mem
  | cons first rest ih =>
    obtain ⟨once, distinct⟩ := List.nodup_cons.mp distinct
    rw [List.foldl_cons]
    rcases List.mem_cons.mp mem with rfl | later
    · rw [view_broadcast_of_notMem once]
      exact logged_fanOut logged attached
    · have differs : peerId ≠ first := fun same => once (same ▸ later)
      have same : (mux.fanOut message first).view peerId = mux.view peerId :=
        view_fanOut_of_ne differs
      refine ih (by rw [same]; exact logged) ?_ distinct later
      have still := congrArg PeerView.attached same
      exact AList.lookup_isSome.mp (still.trans (AList.lookup_isSome.mpr attached))

end OwnerMultiplexer

/-! ## Every run -/

/-- What holds of the multiplexer and its logs in every run. -/
def OfflineWorld.Logged (w : OfflineWorld) : Prop :=
  ∀ peerId, (w.mux.view peerId).Logged (w.log peerId)

namespace OfflineWorld.Logged

open OwnerMultiplexer

variable {w w' : OfflineWorld}

/-- A step that concerns one Owner, and writes nothing into the logs. -/
theorem of_peer {mux : OwnerMultiplexer} {peerId : String} (logged : w.Logged)
    (others : ∀ other, other ≠ peerId → mux.view other = w.mux.view other)
    (here : (mux.view peerId).Logged (w.log peerId)) : Logged ⟨mux, w.log⟩ := by
  intro other
  rcases eq_or_ne other peerId with rfl | differs
  · exact here
  · dsimp only
    rw [others other differs]
    exact logged other

/-- A broadcast keeps every buffer with its log. -/
theorem broadcast (logged : w.Logged) (message : ServerMessage) :
    Logged ⟨w.mux.broadcast message, w.note (.broadcast message)⟩ := by
  intro peerId
  by_cases attached : peerId ∈ w.mux.channels
  · exact logged_broadcast (logged peerId) attached w.mux.channels.keys_nodup
      (AList.mem_keys.mp attached)
  · have missing : peerId ∉ w.mux.channels.keys := fun mem => attached (AList.mem_keys.mpr mem)
    rw [OwnerMultiplexer.broadcast, view_broadcast_of_notMem missing]
    refine (logged peerId).relog ?_ _
    exact decide_eq_false (online_of_detached (logged peerId) attached).1

theorem completeOfflineTurn (logged : w.Logged) :
    Logged ⟨w.mux.completeOfflineTurn, w.note .completeOfflineTurn⟩ := by
  intro peerId
  have before := logged peerId
  refine ⟨before.attached, fun online => ?_, fun offline => ?_⟩
  · have unbuffered := before.buffered online
    simp only [view] at unbuffered
    simp [view, OwnerMultiplexer.completeOfflineTurn, unbuffered]
  · have contiguous := before.contiguous offline
    simp only [view, OwnerMultiplexer.completeOfflineTurn, Map.lookup_mapValues] at contiguous ⊢
    cases found : w.mux.offlineBuffers.lookup peerId with
    | none =>
      rw [found] at contiguous
      exact contiguous.completeOfflineTurn
    | some buffer =>
      rw [found] at contiguous
      exact contiguous.completeOfflineTurn

/-- An Owner that goes offline starts a new log. -/
theorem markPeerOffline (logged : w.Logged) (peerId : String) :
    Logged ⟨w.mux.markPeerOffline peerId, w.note (.peerOffline peerId)⟩ := by
  rw [OwnerMultiplexer.markPeerOffline, OfflineWorld.note]
  split
  · exact logged
  next goes =>
  rw [not_or, not_not] at goes
  intro other
  rcases eq_or_ne other peerId with rfl | differs
  · -- a buffer begins with the first broadcast
    have unbuffered := (logged other).buffered (decide_eq_false goes.2)
    simp only [view] at unbuffered
    refine ⟨fun _ => AList.lookup_isSome.mpr goes.1, fun online => ?_, fun _ => ?_⟩
    · simp [view] at online
    · simp only [view, unbuffered, Function.update_self]
      exact .create rfl
  · have same : ({ w.mux with
        offlinePeerIds := insert peerId w.mux.offlinePeerIds } : OwnerMultiplexer).view other =
          w.mux.view other := by
      simp [view, differs]
    dsimp only
    rw [same, Function.update_of_ne differs]
    exact logged other

/-- Every step keeps the buffers with their logs. -/
theorem step {a : MuxAction} (logged : w.Logged) (taken : offlineMachine.step w a = some w') :
    w'.Logged := by
  obtain ⟨mux, stepped, rfl⟩ := Option.map_eq_some_iff.mp taken
  cases a with
  | attach process peerId peerRecord =>
    obtain ⟨channel, -, rfl⟩ := Option.map_eq_some_iff.mp stepped
    exact logged.of_peer (fun other differs => view_attach_of_ne differs)
      (logged_attach (logged peerId))
  | detach peerId =>
    cases stepped
    exact logged.of_peer (fun other differs => view_detach_of_ne differs)
      (logged_detach (logged peerId))
  | channelWork peerId channel =>
    simp only [muxMachine] at stepped
    obtain ⟨works, rfl⟩ := Machine.of_guard stepped
    exact logged.of_peer (fun other differs => view_settle_of_ne differs)
      (logged_settle (logged peerId) works.1)
  | broadcast message =>
    cases stepped
    exact logged.broadcast message
  | completeOfflineTurn =>
    cases stepped
    exact logged.completeOfflineTurn
  | peerOffline peerId =>
    cases stepped
    exact logged.markPeerOffline peerId
  | peerOnline peerId =>
    cases stepped
    exact logged.of_peer (fun other differs => view_markPeerOnline_of_ne differs)
      (logged_markPeerOnline fun _ => logged peerId)
  | sessionSync peerId =>
    cases stepped
    rw [routeSessionSync]
    split
    · next offline =>
      refine logged.of_peer (fun other differs => ?_) (logged_markPeerOnline (absurd offline))
      refine (view_markPeerOnline_of_ne differs).trans ?_
      simp [view, differs]
    · exact logged

/-- In every state that is reached, the buffers hold what the logs say. -/
theorem reachable (reached : offlineMachine.Reachable w) : w.Logged := by
  refine reached.invariant (I := Logged) ?_ ?_
  · intro w initial peerId
    have empty : w.mux = ⟨∅, ∅, ∅, ∅⟩ := initial
    rw [empty]
    exact logged_of_online (by simp) rfl
  · intro w a w' logged _ taken
    exact logged.step taken

end OfflineWorld.Logged

/-! ## The flush -/

/-- A channel with so many frames and bytes pending accepts every frame of these sizes but
perhaps the last. -/
def acceptsAllButLast (frames bytes : Nat) : List Nat → Prop
  | [] => True
  | [_] => True
  | size :: next :: sizes =>
    (frames < maxPendingOwnerOutboundFrames ∧ size ≤ maxPendingOwnerOutboundBytes - bytes) ∧
      acceptsAllButLast (frames + 1) (bytes + size) (next :: sizes)

instance : ∀ frames bytes sizes, Decidable (acceptsAllButLast frames bytes sizes)
  | _, _, [] | _, _, [_] => isTrue trivial
  | frames, bytes, size :: next :: sizes =>
    have : Decidable (acceptsAllButLast (frames + 1) (bytes + size) (next :: sizes)) :=
      instDecidableAcceptsAllButLast _ _ _
    inferInstanceAs (Decidable (_ ∧ _))

/-- A channel takes all but the last frame only of as many as it has room for. -/
theorem length_of_acceptsAllButLast {frames bytes : Nat} {sizes : List Nat}
    (accepts : acceptsAllButLast frames bytes sizes) (several : 2 ≤ sizes.length) :
    frames + sizes.length ≤ maxPendingOwnerOutboundFrames + 1 := by
  induction sizes generalizing frames bytes with
  | nil => cases several
  | cons size sizes ih =>
    cases sizes with
    | nil => simp at several
    | cons next sizes =>
      obtain ⟨⟨room, -⟩, accepts⟩ := accepts
      cases sizes with
      | nil =>
        simp only [List.length_cons, List.length_nil]
        omega
      | cons further sizes =>
        have rest := ih accepts (by simp)
        simp only [List.length_cons] at rest ⊢
        omega

namespace OwnerMultiplexer

variable {mux : OwnerMultiplexer} {peerId : String} {channel : Channel}
  {buffer : OfflinePeerBuffer}

/-- The channel of the Owner stays attached until the last frame of its buffer is handed over. -/
def FlushUncut (mux : OwnerMultiplexer) (peerId : String) : Prop :=
  ∀ channel ∈ mux.channels.lookup peerId, ∀ buffer ∈ mux.offlineBuffers.lookup peerId,
    acceptsAllButLast channel.outbound.length channel.pendingOutboundBytes
      (buffer.frames.map BufferedServerMessage.bytes)

instance (mux : OwnerMultiplexer) (peerId : String) : Decidable (mux.FlushUncut peerId) :=
  inferInstanceAs (Decidable (∀ channel ∈ mux.channels.lookup peerId,
    ∀ buffer ∈ mux.offlineBuffers.lookup peerId, acceptsAllButLast _ _ _))

/-- The frames are handed over up to the first that the channel does not accept. -/
theorem flush_sent {frames : List BufferedServerMessage} (valid : BufferInvariant buffer)
    (is : buffer.frames = frames) (attached : mux.channels.lookup peerId = some channel)
    (opened : channel.detached = false ∧ channel.disconnectNotified = false)
    (offline : peerId ∈ mux.offlinePeerIds) (buffered : peerId ∈ mux.offlineBuffers) :
    (acceptsAllButLast channel.outbound.length channel.pendingOutboundBytes
        (frames.map BufferedServerMessage.bytes) →
      (flush peerId buffer.frames.length buffer mux).2 = messagesOf frames) ∧
    (¬ acceptsAllButLast channel.outbound.length channel.pendingOutboundBytes
        (frames.map BufferedServerMessage.bytes) →
      ∃ k, 0 < k ∧ k < frames.length ∧
        (flush peerId buffer.frames.length buffer mux).2 = messagesOf (frames.take k)) := by
  induction frames generalizing buffer mux channel with
  | nil =>
    rw [is]
    exact ⟨fun _ => rfl, fun cut => absurd trivial cut⟩
  | cons entry rest ih =>
    obtain ⟨buffer', rest', valid', round⟩ := flush_cons valid is attached offline buffered
    rw [round]
    have serialized := valid.serialized entry (is ▸ List.mem_cons_self)
    obtain ⟨json, text, bytes⟩ := Option.map_eq_some_iff.mp serialized
    cases rest with
    | nil =>
      -- whether the last frame is accepted does not matter
      rw [rest']
      exact ⟨fun _ => rfl, fun cut => absurd trivial cut⟩
    | cons next rest =>
    by_cases room : channel.outbound.length < maxPendingOwnerOutboundFrames ∧
        entry.bytes ≤ maxPendingOwnerOutboundBytes - channel.pendingOutboundBytes
    · obtain ⟨channels, offlines, buffers⟩ := afterRound_of_fits mux peerId buffer' opened text
        room.1 (by rw [bytes]; exact room.2)
      have accepted : (mux.afterRound peerId channel buffer' entry.message).channels.lookup peerId =
          some { channel with outbound := channel.outbound ++ [json] } := by
        rw [channels, AList.lookup_insert]
      have pending : ({ channel with outbound := channel.outbound ++ [json] } :
          Channel).pendingOutboundBytes = channel.pendingOutboundBytes + entry.bytes := by
        simp [Channel.pendingOutboundBytes, bytes]
      have later := ih valid' rest' accepted opened (by rw [offlines]; exact offline)
        (by rw [buffers]; exact Map.mem_iff_lookup.mpr ⟨_, AList.lookup_insert _⟩)
      rw [pending, List.length_append, List.length_singleton] at later
      simp only [List.map_cons, acceptsAllButLast, and_iff_right room] at later ⊢
      constructor
      · intro accepts
        rw [later.1 accepts]
        rfl
      · intro cut
        obtain ⟨k, positive, before, sent⟩ := later.2 cut
        refine ⟨k + 1, Nat.succ_pos k, Nat.succ_lt_succ before, ?_⟩
        rw [sent]
        rfl
    · -- the channel disconnects over this frame, which ends the loop
      have overflow : maxPendingOwnerOutboundFrames ≤ channel.outbound.length ∨
          maxPendingOwnerOutboundBytes - channel.pendingOutboundBytes < json.utf8ByteSize := by
        rw [bytes]
        omega
      have gone := afterRound_of_overflow mux peerId buffer' opened text overflow
      refine ⟨fun accepts => absurd accepts.1 room, fun _ => ⟨1, Nat.one_pos, by simp, ?_⟩⟩
      rw [flush_of_gone gone]
      rfl

/-- What an Owner that is back online is sent: the whole buffer, or a proper part of it. -/
theorem markPeerOnline_sent (inv : MuxInvariant mux)
    (attached : mux.channels.lookup peerId = some channel) (offline : peerId ∈ mux.offlinePeerIds)
    (buffered : mux.offlineBuffers.lookup peerId = some buffer) :
    (mux.FlushUncut peerId → (mux.markPeerOnline peerId).2 = messagesOf buffer.frames) ∧
    (¬ mux.FlushUncut peerId → ∃ k, 0 < k ∧ k < buffer.frames.length ∧
      (mux.markPeerOnline peerId).2 = messagesOf (buffer.frames.take k)) := by
  have sent := flush_sent (inv.buffers _ _ buffered) rfl attached (inv.opened _ _ attached) offline
    (Map.mem_iff_lookup.mpr ⟨_, buffered⟩)
  have uncut : mux.FlushUncut peerId ↔ acceptsAllButLast channel.outbound.length
      channel.pendingOutboundBytes (buffer.frames.map BufferedServerMessage.bytes) := by
    rw [FlushUncut, attached, buffered]
    simp
  rw [markPeerOnline, if_neg (not_not.mpr offline), attached, buffered, uncut]
  exact sent

end OwnerMultiplexer

/-- A proper beginning of distinct elements is not also their end. -/
theorem not_take_isSuffix {α : Type} {elements : List α} {k : Nat} (distinct : elements.Nodup)
    (positive : 0 < k) (proper : k < elements.length) : ¬ elements.take k <:+ elements := by
  rintro ⟨front, whole⟩
  cases elements with
  | nil => cases proper
  | cons first rest =>
  obtain ⟨k, rfl⟩ := Nat.exists_eq_succ_of_ne_zero (Nat.pos_iff_ne_zero.mp positive)
  have lengths := congrArg List.length whole
  rw [List.take_succ_cons] at whole
  cases front with
  | nil => simp at lengths proper; omega
  | cons other front =>
    injection whole with same whole
    rw [← whole] at distinct
    exact (List.nodup_cons.mp distinct).1 (by simp)

namespace OfflineWorld

variable {w : OfflineWorld} {peerId : String}

/-- The logs change nothing for the multiplexer. -/
theorem muxInvariant_of_reachable (reached : offlineMachine.Reachable w) : MuxInvariant w.mux := by
  refine reached.invariant (I := fun w => MuxInvariant w.mux) ?_ ?_
  · intro w initial
    have empty : w.mux = ⟨∅, ∅, ∅, ∅⟩ := initial
    rw [empty]
    exact ⟨nofun, nofun⟩
  · intro w a w' inv _ taken
    obtain ⟨mux, stepped, rfl⟩ := Option.map_eq_some_iff.mp taken
    exact inv.step stepped

/-- An Owner with a buffer is offline and attached, and the buffer holds an exact suffix. -/
theorem Logged.held (logged : w.Logged) {buffer : OfflinePeerBuffer}
    (buffered : w.mux.offlineBuffers.lookup peerId = some buffer) :
    peerId ∈ w.mux.offlinePeerIds ∧ peerId ∈ w.mux.channels ∧
      ExactSuffix (w.log peerId) (messagesOf buffer.frames) := by
  have offline : peerId ∈ w.mux.offlinePeerIds := by
    by_contra online
    cases ((logged peerId).buffered (decide_eq_false online)).symm.trans buffered
  have contiguous := (logged peerId).contiguous (decide_eq_true offline)
  rw [OwnerMultiplexer.view, buffered] at contiguous
  exact ⟨offline, AList.lookup_isSome.mp ((logged peerId).attached (decide_eq_true offline)),
    contiguous.exactSuffix⟩

/-- Without a buffer nothing is sent. -/
theorem markPeerOnline_of_unbuffered (unbuffered : w.mux.offlineBuffers.lookup peerId = none) :
    (w.mux.markPeerOnline peerId).2 = [] := by
  rw [OwnerMultiplexer.markPeerOnline]
  split
  · rfl
  · rw [unbuffered]
    split
    · next impossible => cases impossible
    · rfl

/-- A flush that is not cut short sends the whole buffer. -/
theorem exactSuffix_of_uncut (inv : MuxInvariant w.mux) (logged : w.Logged)
    (uncut : w.mux.FlushUncut peerId) :
    ExactSuffix (w.log peerId) (w.mux.markPeerOnline peerId).2 := by
  cases buffered : w.mux.offlineBuffers.lookup peerId with
  | none => exact Or.inl (markPeerOnline_of_unbuffered buffered)
  | some buffer =>
    obtain ⟨offline, attached, held⟩ := logged.held buffered
    obtain ⟨channel, found⟩ := Map.mem_iff_lookup.mp attached
    rw [(OwnerMultiplexer.markPeerOnline_sent inv found offline buffered).1 uncut]
    exact held

/-- A flush that is cut short sends a proper beginning of the buffer, which is no suffix where
the messages are distinct. -/
theorem uncut_of_exactSuffix (inv : MuxInvariant w.mux) (logged : w.Logged)
    (distinct : (broadcasts (w.log peerId)).Nodup)
    (exact' : ExactSuffix (w.log peerId) (w.mux.markPeerOnline peerId).2) :
    w.mux.FlushUncut peerId := by
  by_contra cut
  cases buffered : w.mux.offlineBuffers.lookup peerId with
  | none =>
    apply cut
    intro channel _ buffer impossible
    cases buffered.symm.trans impossible
  | some buffer =>
    obtain ⟨offline, attached, held⟩ := logged.held buffered
    obtain ⟨channel, found⟩ := Map.mem_iff_lookup.mp attached
    obtain ⟨k, positive, proper, sent⟩ :=
      (OwnerMultiplexer.markPeerOnline_sent inv found offline buffered).2 cut
    have whole := held.isSuffix
    have part := exact'.isSuffix
    rw [sent, messagesOf, List.map_take] at part
    refine not_take_isSuffix (distinct.sublist whole.sublist) positive ?_
      (List.suffix_of_suffix_length_le part whole ?_)
    · rw [messagesOf, List.length_map]
      exact proper
    · rw [List.length_take]
      exact Nat.min_le_right ..

end OfflineWorld

/-- In every run, the byte counts of a buffer are exact, both caps are met, and its frames are
the last messages broadcast while the Owner was offline, from a boundary on. So are the messages
that a flush sends if it is not cut short; and where the messages are distinct, only then. -/
theorem flush_exactSuffix_iff {w : OfflineWorld} (reached : offlineMachine.Reachable w)
    (peerId : String) :
    (∀ buffer ∈ w.mux.offlineBuffers.lookup peerId,
      BufferInvariant buffer ∧ ExactSuffix (w.log peerId) (messagesOf buffer.frames)) ∧
    (w.mux.FlushUncut peerId → ExactSuffix (w.log peerId) (w.mux.markPeerOnline peerId).2) ∧
    ((broadcasts (w.log peerId)).Nodup →
      (ExactSuffix (w.log peerId) (w.mux.markPeerOnline peerId).2 ↔
        w.mux.FlushUncut peerId)) := by
  have inv := OfflineWorld.muxInvariant_of_reachable reached
  have logged := OfflineWorld.Logged.reachable reached
  refine ⟨fun buffer buffered => ⟨inv.buffers _ _ buffered, (logged.held buffered).2.2⟩,
    OfflineWorld.exactSuffix_of_uncut inv logged, fun distinct => ?_⟩
  exact ⟨OfflineWorld.uncut_of_exactSuffix inv logged distinct,
    OfflineWorld.exactSuffix_of_uncut inv logged⟩

theorem initial_empty : offlineMachine.Init ⟨⟨∅, ∅, ∅, ∅⟩, fun _ => []⟩ := rfl

/-- A message that cannot be serialized empties the buffer in its turn, and two turns follow. -/
def droppingRun : List MuxAction :=
  goesOffline ++ [.broadcast ⟨some "a", none⟩, .broadcast ⟨none, none⟩, .broadcast ⟨some "b", none⟩,
    .completeOfflineTurn, .broadcast ⟨some "c", none⟩, .completeOfflineTurn,
    .broadcast ⟨some "d", none⟩]

/-- What is sent are the messages since the end of that turn, and the flush is not cut short. -/
theorem flush_exactSuffix_iff_dropped :
    ∃ w, offlineMachine.Reachable w ∧ (broadcasts (w.log "owner")).length = 5 ∧
      (w.mux.markPeerOnline "owner").2 = [⟨some "c", none⟩, ⟨some "d", none⟩] ∧
      (ExactSuffix (w.log "owner") (w.mux.markPeerOnline "owner").2 ↔
        w.mux.FlushUncut "owner") ∧ w.mux.FlushUncut "owner" := by
  have ran : (offlineMachine.exec ⟨⟨∅, ∅, ∅, ∅⟩, fun _ => []⟩ droppingRun).any (fun w =>
      decide ((broadcasts (w.log "owner")).length = 5 ∧ (broadcasts (w.log "owner")).Nodup ∧
        w.mux.FlushUncut "owner") &&
      decide ((w.mux.markPeerOnline "owner").2 = [⟨some "c", none⟩, ⟨some "d", none⟩])) = true := by
    decide
  obtain ⟨w, executed, facts⟩ := (Option.any_eq_true _ _).mp ran
  obtain ⟨logged, sent⟩ := (Bool.and_eq_true _ _).mp facts
  obtain ⟨five, distinct, uncut⟩ := of_decide_eq_true logged
  have reached := Machine.reachable_of_exec initial_empty executed
  exact ⟨w, reached, five, of_decide_eq_true sent,
    (flush_exactSuffix_iff reached "owner").2.2 distinct, uncut⟩

/-- Chunks for an offline Owner, and the log of them. -/
theorem reachable_logged_chunks {n : Nat} (room : n ≤ offlineBufferMaxFrames) :
    ∃ w channel, offlineMachine.Reachable w ∧ w.mux.channels.keys = ["owner"] ∧
      w.mux.channels.lookup "owner" = some channel ∧ channel.outbound = [] ∧
      "owner" ∈ w.mux.offlinePeerIds ∧
      (w.mux.offlineBuffers.lookup "owner").getD createOfflinePeerBuffer = chunks n ∧
      w.log "owner" = List.replicate n (.message chunk) := by
  induction n with
  | zero =>
    have ran : (offlineMachine.exec ⟨⟨∅, ∅, ∅, ∅⟩, fun _ => []⟩ goesOffline).any (fun w =>
        decide (w.mux.channels.keys = ["owner"]) &&
        (w.mux.channels.lookup "owner").any (fun channel => decide (channel.outbound = [])) &&
        decide ("owner" ∈ w.mux.offlinePeerIds) &&
        (w.mux.offlineBuffers.lookup "owner").isNone && decide (w.log "owner" = [])) = true := by
      decide
    obtain ⟨w, executed, facts⟩ := (Option.any_eq_true _ _).mp ran
    simp only [Bool.and_eq_true, Option.any_eq_true, Option.isNone_iff_eq_none,
      decide_eq_true_eq] at facts
    obtain ⟨⟨⟨⟨keys, channel, attached, idle⟩, offline⟩, unbuffered⟩, log⟩ := facts
    have reached := Machine.reachable_of_exec initial_empty executed
    exact ⟨w, channel, reached, keys, attached, idle, offline, by rw [unbuffered]; rfl, log⟩
  | succ n ih =>
    obtain ⟨w, channel, ⟨s₀, initial, run⟩, keys, attached, idle, offline, filled, log⟩ :=
      ih (Nat.le_of_succ_le room)
    have grown := broadcast_chunk keys attached offline filled room
    refine ⟨⟨w.mux.broadcast chunk, w.note (.broadcast chunk)⟩, channel,
      ⟨s₀, initial, run.tail (a := .broadcast chunk) trivial rfl⟩, ?_⟩
    simp only [grown]
    refine ⟨keys, attached, idle, offline, ?_, ?_⟩
    · rw [AList.lookup_insert]
      rfl
    · change w.log "owner" ++ [.message chunk] = _
      rw [log]
      exact List.replicate_succ'.symm

/-- With two frames more than the channel may have pending, the flush is cut short, and what was
sent is not the end of what was broadcast. -/
theorem exists_cut_flush :
    ∃ w peerId, offlineMachine.Reachable w ∧
      ¬ ExactSuffix (w.log peerId) (w.mux.markPeerOnline peerId).2 := by
  obtain ⟨w, channel, reached, -, attached, idle, offline, filled, log⟩ :=
    reachable_logged_chunks (n := maxPendingOwnerOutboundFrames + 2) (by decide)
  refine ⟨w, "owner", reached, fun suffix => ?_⟩
  have buffered : w.mux.offlineBuffers.lookup "owner" =
      some (chunks (maxPendingOwnerOutboundFrames + 2)) := by
    cases found : w.mux.offlineBuffers.lookup "owner" with
    | none =>
      rw [found] at filled
      cases congrArg OfflinePeerBuffer.currentBytes filled
    | some buffer =>
      rw [found] at filled
      exact congrArg some filled
  have inv := OfflineWorld.muxInvariant_of_reachable reached
  -- one frame too many is buffered for the channel to take them all
  have cut : ¬ w.mux.FlushUncut "owner" := by
    intro uncut
    have accepts := uncut channel attached _ buffered
    have few := length_of_acceptsAllButLast accepts (by simp [OfflinePeerBuffer.frames, chunks])
    simp [OfflinePeerBuffer.frames, chunks, idle] at few
  obtain ⟨k, positive, proper, sent⟩ :=
    (OwnerMultiplexer.markPeerOnline_sent inv attached offline buffered).2 cut
  -- what is sent is a proper prefix of the buffer
  have length : (messagesOf ((chunks (maxPendingOwnerOutboundFrames + 2)).frames.take k)).length =
      k := by
    rw [messagesOf, List.length_map, List.length_take]
    exact Nat.min_eq_left (Nat.le_of_lt proper)
  rw [sent, log] at suffix
  rcases suffix with nothing | ⟨before, after, whole, is, boundary⟩
  · rw [nothing] at length
    exact absurd length (Nat.ne_of_lt positive)
  · rcases boundary with rfl | ⟨earlier, rfl⟩
    · -- the log is all chunks, and not all of them were sent
      rw [List.nil_append] at whole
      rw [← is, ← whole] at length
      simp [broadcasts, OfflineMark.broadcast?, List.filterMap_replicate] at length
      simp [OfflinePeerBuffer.frames, chunks] at proper
      omega
    · have turn : OfflineMark.turn ∈
          List.replicate (maxPendingOwnerOutboundFrames + 2) (OfflineMark.message chunk) := by
        rw [whole]
        simp
      cases List.eq_of_mem_replicate turn

end OutpostPi.Pi
