import OutpostPi.Lib.Machine
import OutpostPi.Session.TranscriptProjection

/-!
# User facts of the transcript

An app message is reserved under its content before it is handed to the SDK. The `message_end` of a
user message takes the oldest reservation of its content and confirms its app message; where there
is none, it confirms a message of its own, named by its timestamp. The delivery confirms the app
message as well when its promise resolves, and gives its reservation back when it is rejected.

A message typed in the terminal may have the content of an app message, so that its `message_end`
takes the reservation of that message. `Attributed` are the runs in which this does no harm: a
delivery that is rejected still has its reservation. The reservations of all contents are kept in
one list here, in which those of one content stand in their order.
-/

set_option autoImplicit false

namespace OutpostPi.Session.UserFacts

open OutpostPi.Lib

/-! ## Contents -/

/-- What user messages are matched by. -/
abbrev Content := String × List WireImage

/-- A message of an app. -/
structure UserMessage where
  id : String
  text : String
  images : Option (List WireImage)

/-- The block of an image in the content that the agent gets. -/
def imageBlock (image : WireImage) : Option SdkBlock :=
  some ⟨some "image", "", none, "", none, some image.data, some image.mime⟩

/-- The block of a text. -/
def textBlock (text : String) : Option SdkBlock :=
  some ⟨some "text", text, none, "", none, none, none⟩

namespace UserMessage

/-- What is handed to the SDK. -/
def content (msg : UserMessage) : SdkContent :=
  match msg.images.getD [] with
  | [] => .text msg.text
  | image :: images => .blocks ((image :: images).map imageBlock ++ [textBlock msg.text])

/-- The key of the reservation. -/
def signature (msg : UserMessage) : Content :=
  transcriptUserContentSignature msg.text msg.images

/-- The images have their two keys in the order in which the transcript writes them. -/
def IsCanonical (msg : UserMessage) : Prop :=
  ∀ image ∈ msg.images.getD [], image.mimeFirst = false

instance (msg : UserMessage) : Decidable msg.IsCanonical :=
  inferInstanceAs (Decidable (∀ image ∈ msg.images.getD [], _))

end UserMessage

/-- The content of a message of the SDK. -/
def contentOf (content : SdkContent) : Content :=
  (stringifyContent content, imagesFromContent content)

/-- A content without regard to the order of the keys of its images. -/
def normalize (content : Content) : Content :=
  (content.1, content.2.map fun image => { image with mimeFirst := false })

/-! ## State -/

/-- A reservation, with the attempt that it belongs to. -/
structure DeliveredUserEventReservation where
  attempt : Nat
  key : Content
  clientMessageId : String
  eventId : String
  producerTs : Int
  streamingBehavior : Option StreamingBehavior
  deriving DecidableEq

/-- Where a delivery is. The SDK accepts it or rejects it; an accepted one resolves later. -/
inductive Stage
  | undecided
  | accepted
  | resolved
  | rejected
  deriving DecidableEq

/-- A delivery attempt. The last field says whether the `message_end` of its message has been
processed. -/
structure Attempt where
  msg : UserMessage
  shouldSteer : Bool
  producedAt : Int
  stage : Stage
  ended : Bool

namespace Attempt

/-- The agent may still take the message of the attempt. -/
def inFlight (attempt : Attempt) : Bool :=
  attempt.stage = .undecided || attempt.stage = .accepted

/-- The streaming behaviour that an attempt asks for. -/
def steer (attempt : Attempt) : Option StreamingBehavior :=
  if attempt.shouldSteer then some .steer else none

end Attempt

/-- One session. The attempts are kept in the order in which they were begun. The last two fields
are history: the contents and the timestamps of the user messages of the SDK. -/
structure Projection where
  sessionId : String
  transcriptLog : List TranscriptEvent
  deliveredUserEventIds : List DeliveredUserEventReservation
  deliveredUserMessageIds : List String
  attempts : List Attempt
  ends : List Content
  timestamps : List Int

namespace Projection

/-! ## Recording -/

/-- The event id of the confirmation of a client message. -/
def eventIdOf (p : Projection) (clientMessageId : String) : String :=
  deterministicTranscriptEventId p.sessionId "user_confirmed" clientMessageId

/-- The confirmation of a message. -/
def confirmedEvent (p : Projection) (eventId : String) (ts : Int) (clientMessageId text : String)
    (images : List WireImage) (streamingBehavior : Option StreamingBehavior) : TranscriptEvent :=
  ⟨eventId, p.sessionId, ts, none, .userConfirmed clientMessageId text
    (if images.isEmpty then none else some images) streamingBehavior⟩

/-- An event of that id is in the transcript. -/
def isRecorded (p : Projection) (eventId : String) : Bool :=
  p.transcriptLog.any fun event => decide (event.identity = (p.sessionId, eventId))

/-- The time of a recorded event. -/
def recordedTranscriptTs (p : Projection) (eventId : String) : Option Int :=
  (p.transcriptLog.find? fun event => decide (event.identity = (p.sessionId, eventId))).map
    TranscriptEvent.ts

/-- Record an event, unless its id is in the transcript. -/
def record (p : Projection) (event : TranscriptEvent) : Projection :=
  if p.isRecorded event.eventId then p
  else { p with transcriptLog := p.transcriptLog ++ [event] }

/-! ## Deliveries -/

/-- An attempt goes on. -/
def setAttempt (p : Projection) (n : Nat) (attempt : Attempt) : Projection :=
  { p with attempts := p.attempts.set n attempt }

/-- The reservations change. -/
def setReservations (p : Projection) (entries : List DeliveredUserEventReservation) :
    Projection :=
  { p with deliveredUserEventIds := entries }

/-- Begin an attempt and reserve its fact. -/
def attemptUserDeliveryOnce (p : Projection) (msg : UserMessage) (shouldSteer : Bool)
    (producedAt : Int) : Projection :=
  let attempt : Attempt := ⟨msg, shouldSteer, producedAt, .undecided, false⟩
  { p with
    deliveredUserEventIds := p.deliveredUserEventIds ++
      [⟨p.attempts.length, msg.signature, msg.id, p.eventIdOf msg.id, producedAt, attempt.steer⟩]
    attempts := p.attempts ++ [attempt] }

/-- A message that is delivered or in flight is not attempted again. -/
def deliver (p : Projection) (msg : UserMessage) (shouldSteer : Bool) (producedAt : Int) :
    Projection :=
  if msg.id ∈ p.deliveredUserMessageIds then p
  else if p.attempts.any fun other => other.inFlight && decide (other.msg.id = msg.id) then p
  else p.attemptUserDeliveryOnce msg shouldSteer producedAt

/-- The SDK accepts a message. -/
def accept (p : Projection) (n : Nat) : Option Projection :=
  match p.attempts[n]? with
  | some attempt =>
    if attempt.stage = .undecided then some (p.setAttempt n { attempt with stage := .accepted })
    else none
  | none => none

/-- Give a reservation back, if it has not been taken. -/
def cancelReservation (p : Projection) (n : Nat) : Projection :=
  p.setReservations (p.deliveredUserEventIds.eraseP fun entry => entry.attempt = n)

/-- The SDK rejects a message. -/
def reject (p : Projection) (n : Nat) : Option Projection :=
  match p.attempts[n]? with
  | some attempt =>
    if attempt.stage = .undecided then
      some ((p.cancelReservation n).setAttempt n { attempt with stage := .rejected })
    else none
  | none => none

/-- The message is known to be delivered. -/
def recordDeliveredUserMessageId (p : Projection) (clientMessageId : String) : Projection :=
  { p with deliveredUserMessageIds := p.deliveredUserMessageIds ++ [clientMessageId] }

/-- Record the confirmation of the message of an attempt. -/
def confirmUserDelivery (p : Projection) (attempt : Attempt) : Projection :=
  (p.record (p.confirmedEvent (p.eventIdOf attempt.msg.id) attempt.producedAt attempt.msg.id
    attempt.msg.text (attempt.msg.images.getD []) attempt.steer)).recordDeliveredUserMessageId
      attempt.msg.id

/-- The promise of an accepted message resolves. -/
def resolve (p : Projection) (n : Nat) : Option Projection :=
  match p.attempts[n]? with
  | some attempt =>
    if attempt.stage = .accepted then
      some ((p.setAttempt n { attempt with stage := .resolved }).confirmUserDelivery attempt)
    else none
  | none => none

/-! ## Messages of the SDK -/

/-- Take the oldest reservation of a content. -/
def consumeDeliveredUserEvent (p : Projection) (key : Content) :
    Option DeliveredUserEventReservation × Projection :=
  (p.deliveredUserEventIds.find? fun entry => entry.key = key,
    p.setReservations (p.deliveredUserEventIds.eraseP fun entry => entry.key = key))

/-- Record the `message_end` of a user message. -/
def recordSdkMessage (p : Projection) (content : Content) (ts : Int) : Projection :=
  let (matched, p) := p.consumeDeliveredUserEvent content
  match matched with
  | some entry =>
    p.record (p.confirmedEvent entry.eventId
      ((p.recordedTranscriptTs entry.eventId).getD entry.producerTs) entry.clientMessageId
      content.1 content.2 entry.streamingBehavior)
  | none =>
    p.record (p.confirmedEvent (p.eventIdOf (syncId ts)) ts (syncId ts) content.1 content.2 none)

/-- Note a user message of the SDK in the history. -/
def note (p : Projection) (content : Content) (ts : Int) : Projection :=
  { p with ends := p.ends ++ [content], timestamps := p.timestamps ++ [ts] }

/-- A `message_end`, whose timestamp is new. -/
def messageEnd (p : Projection) (content : Content) (ts : Int) : Option Projection :=
  if ts ∈ p.timestamps then none
  else some ((p.note content ts).recordSdkMessage content ts)

/-- The `message_end` of an accepted message. -/
def attemptEnd (p : Projection) (n : Nat) (ts : Int) : Option Projection :=
  match p.attempts[n]? with
  | some attempt =>
    if (attempt.stage = .accepted ∨ attempt.stage = .resolved) ∧ attempt.ended = false then
      (p.setAttempt n { attempt with ended := true }).messageEnd (contentOf attempt.msg.content) ts
    else none
  | none => none

end Projection

/-! ## Runs -/

/-- What the extension, the agent and the queue do. -/
inductive Label
  | deliver (msg : UserMessage) (shouldSteer : Bool) (producedAt : Int)
  | accept (n : Nat)
  | reject (n : Nat)
  | resolve (n : Nat)
  | attemptEnd (n : Nat) (ts : Int)
  | localEnd (content : SdkContent) (ts : Int)

/-- One step of the projection. -/
def step (p : Projection) : Label → Option Projection
  | .deliver msg shouldSteer producedAt => some (p.deliver msg shouldSteer producedAt)
  | .accept n => p.accept n
  | .reject n => p.reject n
  | .resolve n => p.resolve n
  | .attemptEnd n ts => p.attemptEnd n ts
  | .localEnd content ts => p.messageEnd (contentOf content) ts

/-- A session without a transcript. -/
def Projection.new (sessionId : String) : Projection := ⟨sessionId, [], [], [], [], [], []⟩

/-- Attempts and messages of the agent interleave freely. -/
def machine : Machine Projection Label where
  Init p := ∃ sessionId, p = .new sessionId
  step := step

/-! ## Conservation -/

/-- The content that an event confirms. -/
def confirmedContent (event : TranscriptEvent) : Option Content :=
  match event.fact with
  | .userConfirmed _ text images _ => some (normalize (text, images.getD []))
  | _ => none

/-- The message that an event confirms. -/
def confirmedId (event : TranscriptEvent) : Option String :=
  match event.fact with
  | .userConfirmed clientMessageId _ _ _ => some clientMessageId
  | _ => none

namespace Projection

/-- How many confirmations have that content. -/
def confirmations (p : Projection) (content : Content) : Nat :=
  p.transcriptLog.countP fun event => confirmedContent event = some content

/-- How many confirmations have that client message id. -/
def confirmationsOf (p : Projection) (clientMessageId : String) : Nat :=
  p.transcriptLog.countP fun event => confirmedId event = some clientMessageId

/-- No delivery is in flight, and the `message_end` of every accepted message is processed. -/
def Quiescent (p : Projection) : Prop :=
  ∀ attempt ∈ p.attempts, attempt.stage = .rejected ∨
    attempt.stage = .resolved ∧ attempt.ended = true

instance (p : Projection) : Decidable p.Quiescent :=
  inferInstanceAs (Decidable (∀ attempt ∈ p.attempts, _))

/-- The user facts are those of the SDK, and app messages are confirmed once and only if their own
delivery was accepted. -/
structure Conserved (p : Projection) : Prop where
  counted : ∀ content, p.confirmations content = p.ends.count content
  once : ∀ clientMessageId, p.confirmationsOf clientMessageId ≤ 1
  accepted : ∀ clientMessageId, (∃ attempt ∈ p.attempts, attempt.msg.id = clientMessageId) →
    p.confirmationsOf clientMessageId ≠ 0 →
      ∃ attempt ∈ p.attempts, attempt.msg.id = clientMessageId ∧ attempt.stage = .resolved

end Projection

/-- A delivery that is rejected still has its reservation; an accepted message has its images in
the order of the transcript; and no app message has the name of a message of the SDK. -/
def Attributed (p : Projection) : Label → Prop
  | .deliver msg _ _ => msg.id ∉ p.timestamps.map syncId
  | .accept n => ∀ attempt ∈ p.attempts[n]?, attempt.msg.IsCanonical
  | .reject n => ∃ entry ∈ p.deliveredUserEventIds, entry.attempt = n
  | .resolve _ => True
  | .attemptEnd _ ts | .localEnd _ ts => ∀ attempt ∈ p.attempts, attempt.msg.id ≠ syncId ts

instance (p : Projection) : (label : Label) → Decidable (Attributed p label)
  | .deliver _ _ _ => inferInstanceAs (Decidable (_ ∉ _))
  | .accept n => inferInstanceAs (Decidable (∀ attempt ∈ p.attempts[n]?, _))
  | .reject _ => inferInstanceAs (Decidable (∃ entry ∈ p.deliveredUserEventIds, _))
  | .resolve _ => isTrue trivial
  | .attemptEnd _ _ | .localEnd _ _ => inferInstanceAs (Decidable (∀ attempt ∈ p.attempts, _))

end OutpostPi.Session.UserFacts
