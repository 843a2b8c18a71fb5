import Mathlib.Data.List.Infix
import Mathlib.Data.List.Sort
import Mathlib.Logic.Function.Basic
import OutpostPi.App.TranscriptEvent
import OutpostPi.Lib.Machine

/-!
# The outbox of owner prompts

`sendMessage` writes a prompt into the outbox before it sends it. The record is removed when the
session that it is aimed at confirms the prompt, when the prompt is cancelled, or when it fails. A
recovery pass lists the records of a room, and then aims each at the current session and sends it,
with an awaited operation after each step.

The pass works on the list that it read. A record that is removed after that is written again, when
the pass aims it at another session, and its prompt is sent again. `Backed` are the runs in which no
removal comes between: the record of a prompt is there from the list that names it, or from its
save, to the step that writes or sends it.

A step of the machine is what a call does from one awaited operation to the next. What is written
to the outbox is there when the call begins to wait, and the outcome of a write is chosen then.
-/

set_option autoImplicit false

namespace OutpostPi.App.OwnerOutbox

open OutpostPi.Lib

/-! ## Records -/

/-- A session of a room of a Pi. -/
structure RemoteSessionRef where
  peerEpk : String
  roomId : String
  sessionId : String
  deriving DecidableEq

/-- The record of a prompt that no session has confirmed. It may have no session to go to yet. -/
structure PendingOwnerDelivery where
  id : String
  peerEpk : String
  roomId : String
  targetSessionId : Option String
  text : String
  createdAt : DateTime
  image : Option MessageImage
  awaitingPickup : Bool
  deriving DecidableEq

namespace PendingOwnerDelivery

/-- Aim a delivery at a session. -/
def target (delivery : PendingOwnerDelivery) (sessionId : String) : PendingOwnerDelivery :=
  { delivery with targetSessionId := some sessionId }

/-- What the key of the record is the hash of. -/
def key (delivery : PendingOwnerDelivery) : String × String × String :=
  (delivery.peerEpk, delivery.roomId, delivery.id)

/-- The order of creation, and of the ids of deliveries that are created together. The stored record
has only the milliseconds of the time, so that the box may order by their ids two deliveries of one
millisecond, which are ordered by their microseconds here. -/
def notAfter (left right : PendingOwnerDelivery) : Prop :=
  left.createdAt.microsecondsSinceEpoch < right.createdAt.microsecondsSinceEpoch ∨
    left.createdAt = right.createdAt ∧ left.id ≤ right.id

instance : DecidableRel notAfter := fun _ _ => inferInstanceAs (Decidable (_ ∨ _))

end PendingOwnerDelivery

/-- The records of the outbox, no two of which have the same key. -/
abbrev Outbox := List PendingOwnerDelivery

namespace Outbox

/-- The record of a delivery is there. -/
def holds (box : Outbox) (delivery : PendingOwnerDelivery) : Bool :=
  box.any fun record => decide (record.key = delivery.key)

/-- Write a record over the one of its key, or behind the others. -/
def upsert (box : Outbox) (delivery : PendingOwnerDelivery) : Outbox :=
  if box.holds delivery then
    box.map fun record => if record.key = delivery.key then delivery else record
  else box ++ [delivery]

/-- The records of a room in the order of creation. -/
def listForRoom (box : Outbox) (peerEpk roomId : String) : List PendingOwnerDelivery :=
  (box.filter fun delivery => delivery.peerEpk = peerEpk ∧ delivery.roomId = roomId).insertionSort
    PendingOwnerDelivery.notAfter

/-- What a confirmation of a session takes away. -/
def confirmedBy (id confirmedSessionId : String) (delivery : PendingOwnerDelivery) : Bool :=
  decide (delivery.id = id ∧ delivery.targetSessionId = some confirmedSessionId)

/-- Remove the record of a prompt, if it is aimed at the session that confirms it. -/
def removeConfirmed (box : Outbox) (id confirmedSessionId : String) : Outbox :=
  box.filter fun delivery => !confirmedBy id confirmedSessionId delivery

end Outbox

/-! ## State -/

/-- What is read of the connection. A channel is known by a number. -/
structure Connection where
  activePeer : Option String
  activeRoomId : String
  activeSessionId : Option String
  channel : Option Nat
  online : Bool
  liveRooms : List (String × String)
  deriving DecidableEq

/-- The relay shows the room as live. -/
def Connection.isRoomLive (conn : Connection) (epk roomId : String) : Bool :=
  conn.online && conn.liveRooms.contains (epk, roomId)

/-- A frame that is sent. -/
structure UserMessage where
  id : String
  sessionId : String
  text : String
  streamingBehavior : Option UserMessageStreamingBehavior
  image : Option MessageImage

/-- What happens to prompts. An accepted one is past the write of its record; the last four are the
confirmation, the cancellation, the failure and the removal. -/
inductive Event
  | accepted (id : String)
  | stored (delivery : PendingOwnerDelivery)
  | sent (message : UserMessage)
  | confirmed (id sessionId : String)
  | cancelled (id sessionId : String)
  | failed (id sessionId : String)
  | removed (delivery : PendingOwnerDelivery)

/-- The service, with the ids that it has given out, those of which a record was written, and what
has happened, the latest first. -/
structure Sync where
  conn : Connection
  lifecycleGeneration : Nat
  activeEpk : Option String
  activeRoomId : String
  activeRef : Option RemoteSessionRef
  ownerDeliveryRecoveryGeneration : Option Nat
  recoveredOwnerDeliveryIds : List String
  outbox : Outbox
  ids : List String
  saved : List String
  history : List Event

namespace Sync

/-- The session that the connection gives for a room. An empty id is no session. -/
def resolveActiveRef (s : Sync) (epk roomId : String) : Option RemoteSessionRef :=
  if s.conn.activePeer = some epk ∧ s.conn.activeRoomId = roomId then
    match s.conn.activeSessionId with
    | some sessionId => if sessionId.isEmpty then none else some ⟨epk, roomId, sessionId⟩
    | none => none
  else none

/-- The lifecycle has not changed since a call read it, and its session is still the active one. -/
def isCurrentLifecycle (s : Sync) (generation : Nat) (ref : RemoteSessionRef) : Bool :=
  decide (generation = s.lifecycleGeneration ∧ s.activeRef = some ref ∧
    s.resolveActiveRef ref.peerEpk ref.roomId = some ref)

/-- Note what has happened. -/
def record (s : Sync) (event : Event) : Sync := { s with history := event :: s.history }

/-- Write the record of a delivery. -/
def store (s : Sync) (delivery : PendingOwnerDelivery) : Sync :=
  { s with outbox := s.outbox.upsert delivery, history := .stored delivery :: s.history }

/-- Write the first record of a prompt. -/
def save (s : Sync) (delivery : PendingOwnerDelivery) : Sync :=
  { s.store delivery with saved := s.saved ++ [delivery.id] }

/-- Remove what a session confirms, and note what is removed. -/
def removeConfirmed (s : Sync) (id confirmedSessionId : String) : Sync :=
  { s with
    outbox := s.outbox.removeConfirmed id confirmedSessionId
    history :=
      (s.outbox.filter (Outbox.confirmedBy id confirmedSessionId)).map .removed ++ s.history }

/-- A new lifecycle starts without attempted deliveries. -/
def ensureOwnerDeliveryRecoveryGeneration (s : Sync) (generation : Nat) : Sync :=
  if s.ownerDeliveryRecoveryGeneration = some generation then s
  else
    { s with ownerDeliveryRecoveryGeneration := some generation, recoveredOwnerDeliveryIds := [] }

/-- The delivery has been attempted in this lifecycle. -/
def remember (s : Sync) (id : String) : Sync :=
  { s with recoveredOwnerDeliveryIds := id :: s.recoveredOwnerDeliveryIds }

/-- The delivery may be attempted again. -/
def forget (s : Sync) (id : String) : Sync :=
  { s with recoveredOwnerDeliveryIds := s.recoveredOwnerDeliveryIds.filter (· ≠ id) }

/-- A delivery has been attempted in a lifecycle. -/
def rememberOwnerDeliveryAttempt (s : Sync) (generation : Nat) (id : String) : Sync :=
  (s.ensureOwnerDeliveryRecoveryGeneration generation).remember id

end Sync

/-! ## Calls -/

/-- A prompt that is to be sent. -/
structure Prompt where
  id : String
  text : String
  createdAt : DateTime
  image : Option MessageImage
  streamingBehavior : Option UserMessageStreamingBehavior

/-- The record of a prompt. Steering prompts wait for their pickup. -/
def Prompt.delivery (prompt : Prompt) (peerEpk roomId : String) (targetSessionId : Option String) :
    PendingOwnerDelivery :=
  ⟨prompt.id, peerEpk, roomId, targetSessionId, prompt.text, prompt.createdAt, prompt.image,
    prompt.streamingBehavior = some .steer⟩

/-- A call of `sendMessage` in a session, with what it read at its beginning. -/
structure Send where
  prompt : Prompt
  generation : Nat
  ref : RemoteSessionRef
  initialChannel : Option Nat
  held : Bool

/-- The record that a call writes. -/
def Send.delivery (send : Send) : PendingOwnerDelivery :=
  send.prompt.delivery send.ref.peerEpk send.ref.roomId (some send.ref.sessionId)

/-- The frame that a call sends. -/
def Send.message (send : Send) : UserMessage :=
  ⟨send.prompt.id, send.ref.sessionId, send.prompt.text, send.prompt.streamingBehavior,
    send.prompt.image⟩

/-- A recovery pass, with what it read at its beginning. -/
structure Pass where
  generation : Nat
  ref : RemoteSessionRef
  channel : Nat

/-- The frame that a pass sends for a record. -/
def Pass.message (pass : Pass) (delivery : PendingOwnerDelivery) : UserMessage :=
  ⟨delivery.id, pass.ref.sessionId, delivery.text,
    if delivery.awaitingPickup then some .steer else none, delivery.image⟩

/-- What a call waits for. A flag says whether the write of the record succeeds; the list of a pass
is what it still has to deliver, and the list of a confirmation the ids still to be removed. -/
inductive Task
  | saveHeld (id : String) (stored : Bool)
  | submit (send : Send)
  | save (send : Send) (stored : Bool)
  | transmit (send : Send)
  | list (pass : Pass) (pending : List PendingOwnerDelivery)
  | retarget (pass : Pass) (delivery : PendingOwnerDelivery) (rest : List PendingOwnerDelivery)
      (stored : Bool)
  | append (pass : Pass) (delivery : PendingOwnerDelivery) (rest : List PendingOwnerDelivery)
  | resend (pass : Pass) (delivery : PendingOwnerDelivery) (rest : List PendingOwnerDelivery)
  | replay (generation : Nat) (ref : RemoteSessionRef) (ids : List String)
  | confirm (ids : List String) (sessionId : String)

/-- What comes of an awaited operation, and of a write that begins in the same step. -/
structure Outcome where
  completes : Bool
  stores : Bool

namespace Sync

/-! ### Sending -/

/-- Begin `sendMessage`. Ids are not given out twice. Without a peer nothing is written. -/
def sendMessage (s : Sync) (prompt : Prompt) (stores : Bool) : Option (Sync × Option Task) :=
  if prompt.id ∈ s.ids then none
  else
    let t := { s with ids := s.ids ++ [prompt.id] }
    match s.activeRef, s.activeEpk with
    | some ref, _ =>
      let held := s.conn.channel.isNone ||
        s.activeEpk.any fun epk => !s.conn.isRoomLive epk s.activeRoomId
      some (t, some (.submit ⟨prompt, s.lifecycleGeneration, ref, s.conn.channel, held⟩))
    | none, some epk =>
      some (if stores then t.save (prompt.delivery epk s.activeRoomId none) else t,
        some (.saveHeld prompt.id stores))
    | none, none => some (t.record (.accepted prompt.id), none)

/-- The prompt may go into the channel. -/
def transmits (s : Sync) (send : Send) : Bool :=
  s.isCurrentLifecycle send.generation send.ref && !send.held &&
    decide (s.conn.channel = send.initialChannel) && s.conn.channel.isSome &&
    decide (s.activeEpk = some send.ref.peerEpk ∧ s.activeRoomId = send.ref.roomId) &&
    s.conn.isRoomLive send.ref.peerEpk send.ref.roomId

/-! ### Recovery -/

/-- The pass may go on. -/
def mayDeliver (s : Sync) (pass : Pass) : Bool :=
  s.isCurrentLifecycle pass.generation pass.ref && decide (s.conn.channel = some pass.channel) &&
    s.conn.isRoomLive pass.ref.peerEpk pass.ref.roomId

/-- The next delivery of a pass that has not been attempted in this generation. -/
def nextDelivery (s : Sync) (pass : Pass) :
    List PendingOwnerDelivery → Option (PendingOwnerDelivery × List PendingOwnerDelivery)
  | [] => none
  | original :: rest =>
    if original.id ∈ s.recoveredOwnerDeliveryIds then s.nextDelivery pass rest
    else if s.mayDeliver pass then some (original, rest)
    else none

/-- Aim a delivery at the session of the pass, unless it is. -/
def takeUp (s : Sync) (pass : Pass) (original : PendingOwnerDelivery)
    (rest : List PendingOwnerDelivery) (stores : Bool) : Sync × Option Task :=
  let t := s.remember original.id
  if original.targetSessionId = some pass.ref.sessionId then (t, some (.append pass original rest))
  else
    let delivery := original.target pass.ref.sessionId
    (if stores then t.store delivery else t, some (.retarget pass delivery rest stores))

/-- A pass goes on with its next delivery, or ends. -/
def deliverNext (s : Sync) (pass : Pass) (pending : List PendingOwnerDelivery) (stores : Bool) :
    Sync × Option Task :=
  match s.nextDelivery pass pending with
  | some (original, rest) => s.takeUp pass original rest stores
  | none => (s, none)

/-- A delivery that failed may be attempted again. -/
def deliverAfterFailure (s : Sync) (pass : Pass) (delivery : PendingOwnerDelivery)
    (rest : List PendingOwnerDelivery) (stores : Bool) : Sync × Option Task :=
  let t := s.forget delivery.id
  if t.isCurrentLifecycle pass.generation pass.ref then t.deliverNext pass rest stores
  else (t, none)

/-- Begin a pass for the active session. -/
def recoverPendingOwnerDeliveries (s : Sync) : Sync × Option Task :=
  match s.activeRef, s.conn.channel with
  | some ref, some channel =>
    if s.isCurrentLifecycle s.lifecycleGeneration ref &&
        s.conn.isRoomLive ref.peerEpk ref.roomId then
      (s.ensureOwnerDeliveryRecoveryGeneration s.lifecycleGeneration,
        some (.list ⟨s.lifecycleGeneration, ref, channel⟩
          (s.outbox.listForRoom ref.peerEpk ref.roomId)))
    else (s, none)
  | _, _ => (s, none)

/-! ### Frames -/

/-- A frame of a session is taken up when the session is active and current. -/
def gate (s : Sync) (sessionId : String) : Option RemoteSessionRef :=
  match s.activeRef with
  | some ref =>
    if ref.sessionId = sessionId && s.isCurrentLifecycle s.lifecycleGeneration ref then some ref
    else none
  | none => none

/-- The echo of a prompt. -/
def userInput (s : Sync) (id sessionId : String) : Sync × Option Task :=
  match s.gate sessionId with
  | some ref => (s.record (.confirmed id ref.sessionId), some (.confirm [id] ref.sessionId))
  | none => (s, none)

/-- A history that is not stale, with the ids of its user inputs. -/
def sessionHistory (s : Sync) (ids : List String) (sessionId : String) : Sync × Option Task :=
  match s.gate sessionId with
  | some ref =>
    ({ s with history := (ids.map fun id => .confirmed id ref.sessionId) ++ s.history },
      some (.replay s.lifecycleGeneration ref ids))
  | none => (s, none)

/-- A cancellation takes the steering prompt that waits for its pickup with it. -/
def cancelled (s : Sync) (targetId sessionId : String) (pendingSteeringId : Option String) :
    Sync × Option Task :=
  match s.gate sessionId with
  | some ref =>
    let ids := targetId :: (pendingSteeringId.filter (· ≠ targetId)).toList
    ({ s with history := (ids.map fun id => .cancelled id ref.sessionId) ++ s.history },
      some (.confirm ids ref.sessionId))
  | none => (s, none)

/-- The codes of errors that do not end a prompt. -/
def isTransient (code : String) : Bool :=
  code = "delivery_pending" || code = "delivery_retry" ||
    decide ("unknown_peer".toList <:+: code.toList) || code = "session_mismatch"

/-- An error frame, of a prompt that is awaited or not. -/
def errorMessage (s : Sync) (inReplyTo : Option String) (code sessionId : String)
    (awaited : Bool) : Sync × Option Task :=
  match s.gate sessionId, inReplyTo with
  | some ref, some id =>
    if !isTransient code && awaited then
      (s.record (.failed id ref.sessionId), some (.confirm [id] ref.sessionId))
    else (s, none)
  | _, _ => (s, none)

/-! ### Lifecycle -/

/-- A room is opened. To open again what is open changes nothing. -/
def activate (s : Sync) (epk roomId : String) (indexLoaded : Bool) : Sync :=
  let room := if roomId.isEmpty then "main" else roomId
  let nextRef := s.resolveActiveRef epk room
  if s.activeEpk = some epk ∧ s.activeRoomId = room ∧ s.activeRef = nextRef ∧
      indexLoaded = true then s
  else
    { s with
      lifecycleGeneration := s.lifecycleGeneration + 1
      activeEpk := some epk
      activeRoomId := room
      activeRef := nextRef }

/-- A lost connection ends the lifecycle. -/
def disconnected (s : Sync) : Sync :=
  { s with lifecycleGeneration := s.lifecycleGeneration + 1 }

end Sync

/-- The calls of the service, the frames that reach it and the changes of the connection. -/
inductive Request
  | sendMessage (prompt : Prompt)
  | recover
  | userInput (id sessionId : String)
  | sessionHistory (ids : List String) (sessionId : String)
  | cancelled (targetId sessionId : String) (pendingSteeringId : Option String)
  | errorMessage (inReplyTo : Option String) (code sessionId : String) (awaited : Bool)
  | connection (conn : Connection)
  | activate (epk roomId : String) (indexLoaded : Bool)
  | disconnected

/-- What a request does up to the first operation that it waits for. -/
def Sync.start (s : Sync) (stores : Bool) : Request → Option (Sync × Option Task)
  | .sendMessage prompt => s.sendMessage prompt stores
  | .recover => some s.recoverPendingOwnerDeliveries
  | .userInput id sessionId => some (s.userInput id sessionId)
  | .sessionHistory ids sessionId => some (s.sessionHistory ids sessionId)
  | .cancelled targetId sessionId pendingSteeringId =>
    some (s.cancelled targetId sessionId pendingSteeringId)
  | .errorMessage inReplyTo code sessionId awaited =>
    some (s.errorMessage inReplyTo code sessionId awaited)
  | .connection conn => some ({ s with conn := conn }, none)
  | .activate epk roomId indexLoaded => some (s.activate epk roomId indexLoaded, none)
  | .disconnected => some (s.disconnected, none)

/-- What a call does when the operation that it waits for ends, up to the next one. -/
def Sync.resume (s : Sync) (outcome : Outcome) : Task → Sync × Option Task
  | .saveHeld id stored => (if stored then s.record (.accepted id) else s, none)
  | .submit send =>
    if outcome.completes then
      (if outcome.stores then s.save send.delivery else s, some (.save send outcome.stores))
    else (s, none)
  | .save send stored =>
    if stored then
      let t := s.record (.accepted send.prompt.id)
      if s.transmits send then (t.record (.sent send.message), some (.transmit send))
      else (t, none)
    else (s, none)
  | .transmit send =>
    if outcome.completes && s.isCurrentLifecycle send.generation send.ref then
      (s.rememberOwnerDeliveryAttempt send.generation send.prompt.id, none)
    else (s, none)
  | .list pass pending =>
    if s.isCurrentLifecycle pass.generation pass.ref &&
        s.conn.isRoomLive pass.ref.peerEpk pass.ref.roomId then
      s.deliverNext pass pending outcome.stores
    else (s, none)
  | .retarget pass delivery rest stored =>
    if stored then
      if s.isCurrentLifecycle pass.generation pass.ref then (s, some (.append pass delivery rest))
      else (s, none)
    else s.deliverAfterFailure pass delivery rest outcome.stores
  | .append pass delivery rest =>
    if outcome.completes then
      if s.mayDeliver pass then
        (s.record (.sent (pass.message delivery)), some (.resend pass delivery rest))
      else (s, none)
    else s.deliverAfterFailure pass delivery rest outcome.stores
  | .resend pass delivery rest =>
    if outcome.completes then
      if s.isCurrentLifecycle pass.generation pass.ref then
        s.deliverNext pass rest outcome.stores
      else (s, none)
    else s.deliverAfterFailure pass delivery rest outcome.stores
  | .replay generation ref ids =>
    match ids with
    | [] => (s, none)
    | id :: rest =>
      if outcome.completes && s.isCurrentLifecycle generation ref then
        (s.removeConfirmed id ref.sessionId, some (.confirm rest ref.sessionId))
      else (s, none)
  | .confirm ids sessionId =>
    match ids with
    | [] => (s, none)
    | id :: rest =>
      if outcome.completes then
        (s.removeConfirmed id sessionId, some (.confirm rest sessionId))
      else (s, none)

/-! ## Runs -/

/-- The service and the calls that are in progress. -/
structure World where
  sync : Sync
  tasks : Nat → Option Task

/-- A request begins as a task, or the operation that a task waits for ends. -/
inductive Label
  | start (n : Nat) (request : Request) (stores : Bool)
  | resume (n : Nat) (outcome : Outcome)

/-- One step of the service. -/
def step (w : World) : Label → Option World
  | .start n request stores =>
    if (w.tasks n).isNone then
      (w.sync.start stores request).map fun result =>
        ⟨result.1, Function.update w.tasks n result.2⟩
    else none
  | .resume n outcome =>
    (w.tasks n).map fun task =>
      let result := w.sync.resume outcome task
      ⟨result.1, Function.update w.tasks n result.2⟩

/-- A service that has given out no id. -/
def World.new (conn : Connection) : World :=
  ⟨⟨conn, 0, none, "main", none, none, [], [], [], [], []⟩, fun _ => none⟩

/-- Tasks interleave freely. -/
def machine : Machine World Label where
  Init w := ∃ conn, w = .new conn
  step := step

/-! ## Conservation -/

/-- The session has confirmed, cancelled or failed the prompt. -/
def Concludes (history : List Event) (id sessionId : String) : Prop :=
  .confirmed id sessionId ∈ history ∨ .cancelled id sessionId ∈ history ∨
    .failed id sessionId ∈ history

/-- The event brings a prompt back. -/
def Event.revives (id : String) : Event → Bool
  | .stored delivery => decide (delivery.id = id)
  | .sent message => decide (message.id = id)
  | _ => false

/-- The prompt whose record is removed. -/
def Event.removedId : Event → Option String
  | .removed delivery => some delivery.id
  | _ => none

/-- Nothing brings a prompt back whose record was removed before. -/
def NoneRevived (history : List Event) : Prop :=
  history.Pairwise fun later earlier => ∀ id ∈ earlier.removedId, later.revives id = false

instance (history : List Event) : Decidable (NoneRevived history) :=
  inferInstanceAs (Decidable (history.Pairwise _))

/-- An accepted prompt has its record until that is removed. A record is removed after the session
that it was aimed at has concluded the prompt, which does not come back. -/
structure Conserved (s : Sync) : Prop where
  kept : ∀ id, .accepted id ∈ s.history → (∃ delivery ∈ s.outbox, delivery.id = id) ∨
    ∃ delivery, .removed delivery ∈ s.history ∧ delivery.id = id
  concluded : ∀ delivery, .removed delivery ∈ s.history → ∃ sessionId,
    delivery.targetSessionId = some sessionId ∧ Concludes s.history delivery.id sessionId
  final : NoneRevived s.history

namespace Sync

/-- The next delivery of a pass still has its record, if it is going to be aimed at another
session. -/
def backsNext (s : Sync) (pass : Pass) (pending : List PendingOwnerDelivery) : Bool :=
  (s.nextDelivery pass pending).all fun next =>
    decide (next.1.targetSessionId = some pass.ref.sessionId) || s.outbox.holds next.1

/-- A prompt that a call is going to write or to send again still has its record. -/
def backs (s : Sync) (outcome : Outcome) : Task → Bool
  | .save send stored => !stored || !s.transmits send || s.outbox.holds send.delivery
  | .list pass pending => s.backsNext pass pending
  | .retarget pass delivery rest stored => stored || (s.forget delivery.id).backsNext pass rest
  | .append pass delivery rest =>
    if outcome.completes then !s.mayDeliver pass || s.outbox.holds delivery
    else (s.forget delivery.id).backsNext pass rest
  | .resend pass delivery rest =>
    if outcome.completes then s.backsNext pass rest
    else (s.forget delivery.id).backsNext pass rest
  | _ => true

end Sync

/-- Prompts are sent to a peer, and nothing removes a record while a call waits that goes on to write
or to send it: no confirmation, cancellation or failure comes between the list of a recovery pass, or
the save of `sendMessage`, and the step that uses what was listed or saved. -/
def Backed (w : World) : Label → Prop
  | .start _ (.sendMessage _) _ => w.sync.activeEpk.isSome = true
  | .start _ _ _ => True
  | .resume n outcome => (w.tasks n).all (w.sync.backs outcome) = true

instance (w : World) : (label : Label) → Decidable (Backed w label)
  | .start _ (.sendMessage _) _ => inferInstanceAs (Decidable (_ = true))
  | .start _ .recover _ => isTrue trivial
  | .start _ (.userInput _ _) _ => isTrue trivial
  | .start _ (.sessionHistory _ _) _ => isTrue trivial
  | .start _ (.cancelled _ _ _) _ => isTrue trivial
  | .start _ (.errorMessage _ _ _ _) _ => isTrue trivial
  | .start _ (.connection _) _ => isTrue trivial
  | .start _ (.activate _ _ _) _ => isTrue trivial
  | .start _ .disconnected _ => isTrue trivial
  | .resume _ _ => inferInstanceAs (Decidable (_ = true))

end OutpostPi.App.OwnerOutbox
