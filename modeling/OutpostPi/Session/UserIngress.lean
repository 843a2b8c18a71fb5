import Mathlib.Data.List.Nodup
import OutpostPi.Lib.Machine
import OutpostPi.Lib.Map

/-!
# User messages on their way to the agent

A `user_message` frame is delivered at once, or it waits in a small queue while no agent session is
bound. Frames with the same id share an attempt that is in flight, and the ids that were delivered
are remembered for their session; an entry of the queue is not looked for. A drain begins an
attempt for every entry, and each caller of an attempt handles its outcome by itself.

The runs in which no record is lost to a reset, no id is answered with an error while another
delivery of it is alive, and no retransmission is put into a full queue (`Clean`) give each id one
outcome: `one_outcome_per_delivery`.

The end of the agent's turn settles an attempt; its continuation and the release of its key run
without anything in between.
-/

set_option autoImplicit false

namespace OutpostPi.Session.UserIngress

open OutpostPi.Lib

/-! ## Data -/

/-- A prepared delivery. The flag is history: a delivery of the id was alive when the frame of
this one arrived. -/
structure PreparedUserDelivery where
  sender : Option String
  id : String
  text : String
  retransmission : Bool
  deriving DecidableEq

/-- Who awaits an attempt: the handler of a frame, or the drain of an entry that was queued at an
instant. -/
inductive Origin
  | frame
  | drained (enqueuedAt : Nat)
  deriving DecidableEq

/-- One that awaits the attempt to deliver a message. -/
structure Caller where
  prepared : PreparedUserDelivery
  origin : Origin
  deriving DecidableEq

/-- What comes of waking the agent with a message. -/
inductive WakeResult
  | ok
  | recoverable (detail : Option String)
  | rejected (detail : Option String)
  | thrown (detail : String)
  deriving DecidableEq

/-- An attempt in flight: the caller that has begun it, and those that share it. -/
structure Attempt where
  sessionId : String
  first : Caller
  others : List Caller
  deriving DecidableEq

/-- A queued delivery: since when it waits, and when its timer fires. -/
structure PendingDeliveryEntry where
  prepared : PreparedUserDelivery
  queueId : Nat
  enqueuedAt : Nat
  timeoutAt : Nat
  deriving DecidableEq

/-- Why messages are turned away for the time being. -/
inductive FenceReason
  | hotReload
  | freshSession
  deriving DecidableEq

/-- What is sent to the owners about an id. -/
inductive Answer
  | internalError (message : String)
  | deliveryPending
  | deliveryRetry (reason : FenceReason)
  | echo (text : String)
  deriving DecidableEq

/-- The answer tells the app that its message has failed. -/
def Answer.isError : Answer → Bool
  | .internalError _ => true
  | .deliveryPending | .deliveryRetry _ | .echo _ => false

/-- What has happened. -/
inductive Event
  | frame (id : String)
  | answered (sender : Option String) (id : String) (answer : Answer)
  | woken (sessionId id : String)
  | evicted (dropped incoming : PreparedUserDelivery)
  deriving DecidableEq

/-- How many deliveries the queue holds. -/
def kPendingDeliveryQueueMax : Nat := 2

/-- How long a queued delivery waits. -/
def pendingDeliveryTtlMs : Nat := 5000

/-- How long a replacement of the session can make it wait. -/
def kPendingDeliveryAbsoluteDeadlineMs : Nat := 60000

/-- The key of an attempt in flight. -/
def dedupeKey (sessionId id : String) : String := sessionId ++ ":" ++ id

/-- The id of the message that a caller delivers. -/
def Caller.id (caller : Caller) : String := caller.prepared.id

/-- The handler of a turn's queued message, which has no sender, only logs what its attempt
throws. -/
def Caller.logs (caller : Caller) : Bool :=
  decide (caller.origin = .frame) && caller.prepared.sender.isNone

namespace Attempt

/-- An attempt is for the message of the caller that began it. -/
def id (attempt : Attempt) : String := attempt.first.id

/-- The key under which an attempt is in flight. -/
def key (attempt : Attempt) : String := dedupeKey attempt.sessionId attempt.id

/-- All that await an attempt, in the order in which they came. -/
def callers (attempt : Attempt) : List Caller := attempt.first :: attempt.others

/-- Another caller awaits the attempt. -/
def coalesce (attempt : Attempt) (caller : Caller) : Attempt :=
  { attempt with others := attempt.others ++ [caller] }

end Attempt

/-- The delivery state of the extension. The last two fields are history: the keys whose record a
reset has discarded, and the events, the latest first. -/
structure Ingress where
  now : Nat
  sessionId : String
  disposed : Bool
  fenceReason : Option FenceReason
  replacing : Bool
  deliveredUserMessageIds : List (String × String)
  inflightUserDeliveries : Map String Nat
  attempts : Map Nat Attempt
  nextAttempt : Nat
  resumed : List (Caller × WakeResult)
  pendingDeliveryQueue : List PendingDeliveryEntry
  nextPendingDeliveryQueueId : Nat
  discarded : List String
  history : List Event

namespace Ingress

/-! ## Answers -/

/-- Note what has happened. -/
def record (s : Ingress) (event : Event) : Ingress :=
  { s with history := event :: s.history }

/-- Tell the sender of a message, or all owners, about it. -/
def answer (s : Ingress) (prepared : PreparedUserDelivery) (answer : Answer) : Ingress :=
  s.record (.answered prepared.sender prepared.id answer)

/-- Answer that a message has failed. -/
def sendDeliveryError (s : Ingress) (prepared : PreparedUserDelivery) (detail : String) :
    Ingress :=
  s.answer prepared (.internalError ("Agent rejected incoming message: " ++ detail))

/-! ## Attempts -/

/-- A message counts as delivered by its session and its id. -/
local instance (key : String × String) (keys : List (String × String)) : Decidable (key ∈ keys) :=
  decidable_of_iff (keys.contains key = true) List.contains_iff_mem

/-- The part of `_attemptUserDelivery` before its promise is awaited. -/
def attemptUserDelivery (s : Ingress) (caller : Caller) : Ingress :=
  if (s.sessionId, caller.id) ∈ s.deliveredUserMessageIds then
    { s.record (.answered none caller.id (.echo caller.prepared.text)) with
      resumed := s.resumed ++ [(caller, .ok)] }
  else
    match s.inflightUserDeliveries.lookup (dedupeKey s.sessionId caller.id) with
    | some n =>
      match s.attempts.lookup n with
      | some attempt => { s with attempts := s.attempts.insert n (attempt.coalesce caller) }
      | none => s
    | none =>
      { s with
        inflightUserDeliveries :=
          s.inflightUserDeliveries.insert (dedupeKey s.sessionId caller.id) s.nextAttempt
        attempts := s.attempts.insert s.nextAttempt ⟨s.sessionId, caller, []⟩
        nextAttempt := s.nextAttempt + 1 }

/-- Record a delivery, and echo it if its transcript event is stored. -/
def confirmUserDelivery (s : Ingress) (attempt : Attempt) (recorded : Bool) : Ingress :=
  let delivered : Ingress :=
    { s.record (.woken attempt.sessionId attempt.id) with
      deliveredUserMessageIds :=
        (attempt.sessionId, attempt.id) :: s.deliveredUserMessageIds }
  if recorded then
    delivered.record (.answered none attempt.id (.echo attempt.first.prepared.text))
  else delivered

/-- Release the key of an attempt, and let its callers go on. -/
def release (s : Ingress) (n : Nat) (attempt : Attempt) (result : WakeResult) : Ingress :=
  { s with
    attempts := s.attempts.erase n
    inflightUserDeliveries := s.inflightUserDeliveries.erase attempt.key
    resumed := s.resumed ++ attempt.callers.map fun caller => (caller, result) }

/-- An attempt ends with a result. -/
def settle (s : Ingress) (n : Nat) (result : WakeResult) (recorded : Bool) : Option Ingress :=
  (s.attempts.lookup n).map fun attempt =>
    let released := s.release n attempt result
    if result = .ok then released.confirmUserDelivery attempt recorded else released

/-! ## The queue -/

/-- Take the oldest entry out. -/
def shift (s : Ingress) : Ingress :=
  { s with pendingDeliveryQueue := s.pendingDeliveryQueue.tail }

/-- Take the entries with a queue id out. -/
def splice (s : Ingress) (queueId : Nat) : Ingress :=
  { s with
    pendingDeliveryQueue := s.pendingDeliveryQueue.filter fun entry => entry.queueId ≠ queueId }

/-- The queued delivery of a queue id. -/
def findEntry (s : Ingress) (queueId : Nat) : Option PendingDeliveryEntry :=
  s.pendingDeliveryQueue.find? fun entry => entry.queueId = queueId

/-- Put a delivery behind the others. -/
def push (s : Ingress) (prepared : PreparedUserDelivery) (enqueuedAt : Nat) : Ingress :=
  { s with
    pendingDeliveryQueue := s.pendingDeliveryQueue ++
      [{ prepared := prepared
         queueId := s.nextPendingDeliveryQueueId
         enqueuedAt := enqueuedAt
         timeoutAt := s.now + (pendingDeliveryTtlMs - (s.now - enqueuedAt)) }]
    nextPendingDeliveryQueueId := s.nextPendingDeliveryQueueId + 1 }

/-- The entry that makes place in a full queue. -/
def evictee (s : Ingress) : Option PendingDeliveryEntry :=
  if kPendingDeliveryQueueMax ≤ s.pendingDeliveryQueue.length then s.pendingDeliveryQueue.head?
  else none

/-- Evict an entry for a delivery. -/
def evict (s : Ingress) (dropped incoming : PreparedUserDelivery) : Ingress :=
  (s.shift.record (.evicted dropped incoming)).sendDeliveryError dropped
    "agent session did not re-arm before the replay queue filled"

/-- Queue a delivery; from a full queue the oldest entry is evicted. -/
def enqueuePendingDelivery (s : Ingress) (prepared : PreparedUserDelivery) (enqueuedAt : Nat) :
    Ingress :=
  match s.evictee with
  | some dropped => (s.evict dropped.prepared prepared).push prepared enqueuedAt
  | none => s.push prepared enqueuedAt

/-- The entry waits longer instead of failing: a replacement is in progress and not stuck. -/
def renews (s : Ingress) (entry : PendingDeliveryEntry) : Bool :=
  s.replacing && decide (s.now - entry.enqueuedAt < kPendingDeliveryAbsoluteDeadlineMs)

/-- The timer of an entry has fired. -/
def expire (s : Ingress) (entry : PendingDeliveryEntry) : Ingress :=
  if s.renews entry then
    { s with
      pendingDeliveryQueue := s.pendingDeliveryQueue.map fun other =>
        if other.queueId = entry.queueId then
          { other with timeoutAt := s.now + pendingDeliveryTtlMs }
        else other }
  else
    (s.splice entry.queueId).sendDeliveryError entry.prepared
      "agent session did not re-arm before queued delivery expired"

/-- The timer of a queued delivery fires, if it is due. -/
def timeout (s : Ingress) (queueId : Nat) : Option Ingress :=
  match s.findEntry queueId with
  | some entry => if entry.timeoutAt ≤ s.now then some (s.expire entry) else none
  | none => none

/-- Every queued delivery fails, in the order of the queue. -/
def failPendingDeliveryQueue (s : Ingress) (detail : String) : Ingress :=
  s.pendingDeliveryQueue.foldl
    (fun failed entry => failed.sendDeliveryError entry.prepared detail)
    { s with pendingDeliveryQueue := [] }

/-- Every queued delivery is attempted, in the order of the queue. -/
def drainPendingDeliveryQueue (s : Ingress) : Ingress :=
  s.pendingDeliveryQueue.foldl
    (fun drained entry =>
      drained.attemptUserDelivery ⟨entry.prepared, .drained entry.enqueuedAt⟩)
    { s with pendingDeliveryQueue := [] }

/-- A recoverable failure is final for a drained entry whose time is over. -/
def expired (s : Ingress) (caller : Caller) : Bool :=
  match caller.origin with
  | .frame => false
  | .drained enqueuedAt => decide (pendingDeliveryTtlMs ≤ s.now - enqueuedAt)

/-- When a caller queues its delivery, the instant from which it waits. -/
def waitsFrom (s : Ingress) (caller : Caller) : Nat :=
  match caller.origin with
  | .frame => s.now
  | .drained enqueuedAt => enqueuedAt

/-- Queue the delivery of a caller. Only a frame is told about it. -/
def queueAgain (s : Ingress) (caller : Caller) : Ingress :=
  let queued := s.enqueuePendingDelivery caller.prepared (s.waitsFrom caller)
  match caller.origin with
  | .frame => queued.answer caller.prepared .deliveryPending
  | .drained _ => queued

/-- What a caller does with the outcome of its attempt. -/
def handle (s : Ingress) (caller : Caller) : WakeResult → Ingress
  | .ok => s
  | .recoverable detail =>
    if s.expired caller then
      s.sendDeliveryError caller.prepared (detail.getD "agent session not bound yet")
    else s.queueAgain caller
  | .rejected detail =>
    s.sendDeliveryError caller.prepared (detail.getD "agent session not bound yet")
  | .thrown detail => if caller.logs then s else s.sendDeliveryError caller.prepared detail

/-- Take a caller out of those that go on. -/
def takeResumed (s : Ingress) (j : Nat) : Ingress :=
  { s with resumed := s.resumed.eraseIdx j }

/-- A caller takes the outcome of its attempt. -/
def resume (s : Ingress) (j : Nat) : Option Ingress :=
  (s.resumed[j]?).map fun outcome => (s.takeResumed j).handle outcome.1 outcome.2

/-! ## Alive deliveries -/

/-- A caller that goes on may queue its delivery. -/
def mayQueue (s : Ingress) (outcome : Caller × WakeResult) : Bool :=
  match outcome.2 with
  | .recoverable _ => !s.expired outcome.1
  | .ok | .rejected _ | .thrown _ => false

/-- A delivery of an id is in the queue, awaits an attempt, or is about to be queued. -/
def Alive (s : Ingress) (id : String) : Prop :=
  (∃ entry ∈ s.pendingDeliveryQueue, entry.prepared.id = id) ∨
    (∃ running ∈ s.attempts.entries, ∃ caller ∈ running.2.callers, caller.id = id) ∨
    ∃ outcome ∈ s.resumed, outcome.1.id = id ∧ s.mayQueue outcome = true

instance (s : Ingress) (id : String) : Decidable (s.Alive id) :=
  inferInstanceAs (Decidable (_ ∨ _ ∨ _))

/-! ## Frames -/

/-- A message as it is delivered, marked as retransmitted if a delivery of its id is alive. -/
def preparedOf (s : Ingress) (sender : Option String) (id text : String) :
    PreparedUserDelivery :=
  ⟨sender, id, text, decide (s.Alive id)⟩

/-- A message is turned away behind a fence, and attempted otherwise. -/
def deliverUserMessage (s : Ingress) (prepared : PreparedUserDelivery) : Ingress :=
  match s.fenceReason with
  | some reason => s.answer prepared (.deliveryRetry reason)
  | none => s.attemptUserDelivery ⟨prepared, .frame⟩

/-- A frame of an owner. -/
def userMessage (s : Ingress) (sender id text : String) : Ingress :=
  let prepared := s.preparedOf (some sender) id text
  let arrived := s.record (.frame id)
  if s.disposed && s.fenceReason.isNone then
    arrived.answer prepared (.internalError "Pi session is replacing or not bound yet")
  else arrived.deliverUserMessage prepared

/-- The queued message of the turn is sent when the turn is over. -/
def queuedMessage (s : Ingress) (id text : String) : Ingress :=
  (s.record (.frame id)).deliverUserMessage (s.preparedOf none id text)

/-- A new session: the records of deliveries are cleared. -/
def resetSessionForNew (s : Ingress) : Ingress :=
  { s with
    deliveredUserMessageIds := []
    inflightUserDeliveries := ∅
    discarded := s.discarded ++
      (s.deliveredUserMessageIds.map fun delivered => dedupeKey delivered.1 delivered.2) ++
      s.inflightUserDeliveries.keys }

end Ingress

/-! ## Runs -/

/-- What can happen between two awaits. -/
inductive Label
  | tick (ms : Nat)
  | userMessage (sender id text : String)
  | queuedMessage (id text : String)
  | settle (n : Nat) (result : WakeResult) (recorded : Bool)
  | resume (j : Nat)
  | timeout (queueId : Nat)
  | drain
  | quit
  | resetSessionForNew
  | sessionChanges (sessionId : String)
  | disposedChanges (disposed : Bool)
  | fenceChanges (reason : Option FenceReason)
  | replacingChanges (replacing : Bool)
  deriving DecidableEq

/-- One step of the extension. -/
def step (s : Ingress) : Label → Option Ingress
  | .tick ms => some { s with now := s.now + ms }
  | .userMessage sender id text => some (s.userMessage sender id text)
  | .queuedMessage id text => some (s.queuedMessage id text)
  | .settle n result recorded => s.settle n result recorded
  | .resume j => s.resume j
  | .timeout queueId => s.timeout queueId
  | .drain => some s.drainPendingDeliveryQueue
  | .quit => some (s.failPendingDeliveryQueue "session closed before queued message replayed")
  | .resetSessionForNew => some s.resetSessionForNew
  | .sessionChanges sessionId => some { s with sessionId := sessionId }
  | .disposedChanges disposed => some { s with disposed := disposed }
  | .fenceChanges reason => some { s with fenceReason := reason }
  | .replacingChanges replacing => some { s with replacing := replacing }

/-- The state of a fresh process in a session. -/
def Ingress.new (sessionId : String) : Ingress where
  now := 0
  sessionId := sessionId
  disposed := false
  fenceReason := none
  replacing := false
  deliveredUserMessageIds := []
  inflightUserDeliveries := ∅
  attempts := ∅
  nextAttempt := 0
  resumed := []
  pendingDeliveryQueue := []
  nextPendingDeliveryQueueId := 1
  discarded := []
  history := []

/-- Everything interleaves freely. -/
def machine : Machine Ingress Label where
  Init s := ∃ sessionId, s = .new sessionId
  step := step

/-! ## One outcome -/

/-- The deliveries that have woken the agent. -/
def wokenIn (history : List Event) : List (String × String) :=
  history.filterMap fun event =>
    match event with
    | .woken sessionId id => some (sessionId, id)
    | .frame _ | .answered _ _ _ | .evicted _ _ => none

/-- An id was answered with an error after its last frame. -/
def Failed (id : String) : List Event → Prop
  | [] => False
  | .frame other :: earlier => other ≠ id ∧ Failed id earlier
  | .answered _ other answer :: earlier =>
    other = id ∧ answer.isError = true ∨ Failed id earlier
  | .woken _ _ :: earlier | .evicted _ _ :: earlier => Failed id earlier

instance instDecidableFailed (id : String) :
    (history : List Event) → Decidable (Failed id history)
  | [] => isFalse nofun
  | .frame other :: earlier =>
    have : Decidable (Failed id earlier) := instDecidableFailed id earlier
    inferInstanceAs (Decidable (other ≠ id ∧ Failed id earlier))
  | .answered _ other answer :: earlier =>
    have : Decidable (Failed id earlier) := instDecidableFailed id earlier
    inferInstanceAs (Decidable (other = id ∧ answer.isError = true ∨ Failed id earlier))
  | .woken _ _ :: earlier | .evicted _ _ :: earlier => instDecidableFailed id earlier

/-- No delivery follows an error without a frame in between. -/
def NoneLate : List Event → Prop
  | [] => True
  | .woken _ id :: earlier => ¬ Failed id earlier ∧ NoneLate earlier
  | .frame _ :: earlier | .answered _ _ _ :: earlier | .evicted _ _ :: earlier => NoneLate earlier

instance instDecidableNoneLate : (history : List Event) → Decidable (NoneLate history)
  | [] => isTrue trivial
  | .woken _ id :: earlier =>
    have : Decidable (NoneLate earlier) := instDecidableNoneLate earlier
    inferInstanceAs (Decidable (¬ Failed id earlier ∧ NoneLate earlier))
  | .frame _ :: earlier | .answered _ _ _ :: earlier | .evicted _ _ :: earlier =>
    instDecidableNoneLate earlier

/-- No retransmission evicts a delivery of another id. -/
def NoneDisplaced (history : List Event) : Prop :=
  ∀ dropped incoming, .evicted dropped incoming ∈ history → incoming.retransmission = true →
    dropped.id = incoming.id

/-- Each delivery wakes the agent once, no delivery follows an error of its id, and no
retransmission displaces another id. -/
structure OneOutcome (history : List Event) : Prop where
  once : (wokenIn history).Nodup
  late : NoneLate history
  displaced : NoneDisplaced history

end OutpostPi.Session.UserIngress
