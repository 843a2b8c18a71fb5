import OutpostPi.Lib.Json
import Mathlib.Algebra.Order.Ring.Int

/-!
# Transcript events and messages of the app

A transcript event is one immutable fact of the append-only stream of a session, and a chat
message is one row of the conversation that is shown. Times are instants to the microsecond.
-/

set_option autoImplicit false

namespace OutpostPi.App

open OutpostPi.Lib

/-! ## Instants -/

/-- An instant, in microseconds. -/
structure DateTime where
  microsecondsSinceEpoch : Int
  deriving DecidableEq

namespace DateTime

/-- The instant of a number of milliseconds. -/
def fromMillisecondsSinceEpoch (milliseconds : Int) : DateTime := ⟨milliseconds * 1000⟩

/-- The milliseconds of an instant, rounded towards the epoch. -/
def millisecondsSinceEpoch (instant : DateTime) : Int := instant.microsecondsSinceEpoch.tdiv 1000

@[simp] theorem millisecondsSinceEpoch_from (milliseconds : Int) :
    (fromMillisecondsSinceEpoch milliseconds).millisecondsSinceEpoch = milliseconds :=
  Int.mul_tdiv_cancel milliseconds (by decide)

end DateTime

/-! ## Messages -/

/-- An image of a message. -/
structure MessageImage where
  data : String
  mime : String
  deriving DecidableEq

/-- What is known of the delivery of a message. -/
inductive UserMsgStatus
  | pending
  | confirmed
  | failed
  deriving DecidableEq

/-- A message of the user. -/
structure UserMsg where
  id : String
  text : String
  status : UserMsgStatus
  image : Option MessageImage
  deriving DecidableEq

/-- A reply. -/
structure AssistantMsg where
  id : String
  text : String
  deriving DecidableEq

/-- What is known of a tool call. -/
inductive ToolEventStatus
  | pending
  | allowed
  | denied
  | expired
  | completed
  | failed
  deriving DecidableEq

/-- A tool call and what came of it. A result that is absent is `null`. -/
structure ToolEvent where
  id : String
  toolCallId : String
  tool : String
  args : List (String × Json)
  status : ToolEventStatus
  result : Json
  error : Option String

/-- A compaction of the context. -/
structure CompactionMsg where
  id : String
  summary : String
  tokensBefore : Option Int
  deriving DecidableEq

/-- A message as the app shows it. -/
inductive ChatMessage
  | user (message : UserMsg)
  | assistant (message : AssistantMsg)
  | tool (event : ToolEvent)
  | compaction (message : CompactionMsg)

/-- The id of a message. -/
def ChatMessage.id : ChatMessage → String
  | .user message => message.id
  | .assistant message => message.id
  | .tool event => event.id
  | .compaction message => message.id

/-- The assistant text that streams in for a prompt. -/
structure StreamingMessage where
  inReplyTo : String
  buffer : String
  deriving DecidableEq

/-- Text is added to a reply that is streamed. -/
def StreamingMessage.appendDelta (message : StreamingMessage) (delta : String) :
    StreamingMessage :=
  { message with buffer := message.buffer ++ delta }

/-! ## Events -/

/-- How a message reached a running turn. -/
inductive UserMessageStreamingBehavior
  | steer
  deriving DecidableEq

/-- What is particular to each kind of event. -/
inductive TranscriptBody
  | userMessageSubmitted (clientMessageId text : String) (image : Option MessageImage)
      (awaitingPickup : Bool)
  | userMessageConfirmed (clientMessageId text : String) (image : Option MessageImage)
      (streamingBehavior : Option UserMessageStreamingBehavior) (semanticPickup : Bool)
  | userMessageFailed (clientMessageId message : String)
  | assistantDeltaReceived (replyTo delta : String)
  | assistantMessageCommitted (messageId replyTo text : String)
  | assistantDoneReceived (replyTo : String)
  | toolRequested (toolCallId tool : String) (args : List (String × Json))
  | toolFinished (toolCallId : String) (result : Json) (error : Option String)
  | compactionRecorded (summary : String) (tokensBefore : Option Int)

/-- An event of the transcript of a session. -/
structure TranscriptEvent where
  eventId : String
  sessionId : String
  ts : DateTime
  turnId : Option String
  body : TranscriptBody

end OutpostPi.App
