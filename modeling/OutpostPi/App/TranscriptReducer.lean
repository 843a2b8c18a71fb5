import OutpostPi.App.TranscriptEvent
import OutpostPi.Lib.Anchor
import OutpostPi.Lib.Map
import OutpostPi.Lib.OrderedMap
import OutpostPi.Lib.RankedList

/-!
# The transcript reducer

`TranscriptProjectionReducer` folds the event stream of one session into the messages that are
shown. An event whose id was seen before is ignored. A prompt, a reply and a compaction become a
row when their id first appears; a tool request and a tool result share one row, which moves
forward when the earlier of the two is reported late. Rows stand in the order of their sort time,
and rows of one time in the order in which they arrived.

The maps from ids to row objects are looked up in the rows themselves (`messageRow`, `toolRow`):
a row is entered in such a map when it is inserted and is never taken out.
-/

set_option autoImplicit false

namespace OutpostPi.App

open OutpostPi.Lib

/-! ## State -/

/-- What the app shows of the turn. -/
inductive AppTurnStatus
  | idle
  | working
  | awaitingTool
  | streaming
  | done
  | error
  | stale
  deriving DecidableEq

/-- The turn of the projection, with the prompt that it answers. -/
structure TranscriptTurnView where
  status : AppTurnStatus
  sessionId : Option String
  turnId : Option String
  replyTo : Option String
  error : Option String
  deriving DecidableEq

/-- No turn is in progress. -/
def TranscriptTurnView.idle : TranscriptTurnView := ⟨.idle, none, none, none, none⟩

/-- The steering prompt that waits until the agent picks it up. -/
inductive SteeringProjection
  | noSteering
  | steeringPending (clientMessageId text : String)
  deriving DecidableEq

/-- What the app shows of a session. The two lists go together item by item. -/
structure TranscriptProjection where
  messages : List ChatMessage
  messageTimestamps : List DateTime
  streaming : Option StreamingMessage
  turn : TranscriptTurnView
  steering : SteeringProjection

/-- A row with its place: the time that it is sorted by, and the number of its arrival. `timestamp`
is the time that is shown. -/
structure ProjectedRow where
  message : ChatMessage
  sortTimestamp : DateTime
  timestamp : DateTime
  arrival : Nat

/-- What identifies a row. -/
inductive RowKey
  | message (id : String)
  | tool (toolCallId : String)
  deriving DecidableEq

/-- Tool messages are known by their calls, other messages by their ids. -/
def ChatMessage.rowKey : ChatMessage → RowKey
  | .tool event => .tool event.toolCallId
  | message => .message message.id

/-- What identifies a row is its message. -/
def ProjectedRow.key (row : ProjectedRow) : RowKey := row.message.rowKey

/-- A submission as it is kept until the agent picks the prompt up. -/
structure Submission where
  clientMessageId : String
  text : String
  image : Option MessageImage
  awaitingPickup : Bool
  ts : DateTime

/-- The rows, the ids that have one, and the number of the next arrival. -/
structure RowTable where
  authoritativeIds : List String
  authoritativeRows : List ProjectedRow
  arrivalCounter : Nat

/-- The tables that the events of a session fill. -/
structure TranscriptState extends RowTable where
  acceptedUsers : List String
  pickedUpUsers : List String
  submittedUsers : OrderedMap String Submission
  failedUsers : List String
  messageTimestamps : Map String DateTime
  assistantReplyTo : Map String String
  firstAssistantRowByReplyTo : Map String ProjectedRow
  requiresReplyAnchoring : Bool
  streaming : Option StreamingMessage
  activeReplyAnchor : Option String
  turn : TranscriptTurnView
  steering : SteeringProjection

/-- Nothing has been applied. -/
def TranscriptState.empty : TranscriptState where
  acceptedUsers := []
  pickedUpUsers := []
  submittedUsers := OrderedMap.empty
  failedUsers := []
  authoritativeIds := []
  authoritativeRows := []
  messageTimestamps := ∅
  assistantReplyTo := ∅
  firstAssistantRowByReplyTo := ∅
  arrivalCounter := 0
  requiresReplyAnchoring := false
  streaming := none
  activeReplyAnchor := none
  turn := .idle
  steering := .noSteering

/-- The reducer of a session, with the events that it has seen and the projection that it built
last. -/
structure TranscriptProjectionReducer where
  sessionId : String
  seenEventIds : List String
  state : TranscriptState
  projection : TranscriptProjection

/-- A reducer that has seen no event shows an idle turn of its session. -/
def TranscriptProjectionReducer.empty (sessionId : String) : TranscriptProjectionReducer where
  sessionId := sessionId
  seenEventIds := []
  state := .empty
  projection :=
    { messages := []
      messageTimestamps := []
      streaming := none
      turn := { TranscriptTurnView.idle with sessionId := some sessionId }
      steering := .noSteering }

/-! ## Rows -/

/-- Rows stand in the order of their times in milliseconds, and of their arrival at one time. -/
def compareRows (a b : ProjectedRow) : Ordering :=
  (compare a.sortTimestamp.millisecondsSinceEpoch b.sortTimestamp.millisecondsSinceEpoch).then
    (compare a.arrival b.arrival)

/-- Insert a row behind those that are not after it, by binary search. -/
def insertAuthoritative (rows : List ProjectedRow) (row : ProjectedRow) : List ProjectedRow :=
  insertSearched (fun other => (compareRows other row).isLE) rows row

/-- The row of a message that is no tool message. -/
def messageRow (rows : List ProjectedRow) (id : String) : Option ProjectedRow :=
  rows.find? fun row => row.key = .message id

/-- The tool event that a row shows. -/
def ProjectedRow.tool? (row : ProjectedRow) : Option ToolEvent :=
  match row.message with
  | .tool event => some event
  | _ => none

/-- The id of a user message. -/
def ChatMessage.userId? : ChatMessage → Option String
  | .user message => some message.id
  | _ => none

/-- The row of a tool call, with the event that it shows. -/
def toolRow (rows : List ProjectedRow) (toolCallId : String) :
    Option (ProjectedRow × ToolEvent) :=
  rows.findSome? fun row =>
    (row.tool?.filter fun event => event.toolCallId = toolCallId).map (row, ·)

/-- Merge what a report adds into the event that a row shows. -/
def ToolEvent.merge (previous tool : ToolEvent) : ToolEvent :=
  let preservesTerminalOutcome := tool.status = .pending ∧ previous.status ≠ .pending
  { id := previous.id
    toolCallId := previous.toolCallId
    tool := if previous.tool ≠ "" then previous.tool else tool.tool
    args := if previous.tool ≠ "" then previous.args else tool.args
    status := if preservesTerminalOutcome then previous.status else tool.status
    result := if preservesTerminalOutcome then previous.result else tool.result
    error := if preservesTerminalOutcome then previous.error else tool.error }

namespace RowTable

/-- Insert a row for a message, unless its id has one. -/
def appendAuthoritative (table : RowTable) (message : ChatMessage) (timestamp : DateTime) :
    RowTable :=
  if message.id ∈ table.authoritativeIds then table
  else
    { authoritativeIds := message.id :: table.authoritativeIds
      authoritativeRows := insertAuthoritative table.authoritativeRows
        ⟨message, timestamp, timestamp, table.arrivalCounter⟩
      arrivalCounter := table.arrivalCounter + 1 }

/-- Insert a row for a tool call, or merge the report into the one that is there. A row moves only
towards the front, when the report is of an earlier time. -/
def upsertTool (table : RowTable) (tool : ToolEvent) (timestamp : DateTime) : RowTable :=
  match toolRow table.authoritativeRows tool.toolCallId with
  | none =>
    { authoritativeIds := tool.id :: table.authoritativeIds
      authoritativeRows := insertAuthoritative table.authoritativeRows
        ⟨.tool tool, timestamp, timestamp, table.arrivalCounter⟩
      arrivalCounter := table.arrivalCounter + 1 }
  | some (existing, previous) =>
    let updated := { existing with message := .tool (previous.merge tool), timestamp := timestamp }
    if timestamp.millisecondsSinceEpoch < existing.sortTimestamp.millisecondsSinceEpoch then
      { table with
        authoritativeRows := insertAuthoritative
          (table.authoritativeRows.eraseP fun row => row.arrival = existing.arrival)
          { updated with sortTimestamp := timestamp } }
    else
      { table with
        authoritativeRows := table.authoritativeRows.map fun row =>
          if row.arrival = existing.arrival then updated else row }

end RowTable

namespace TranscriptState

/-- Insert a row for a message into the table of the state. -/
def appendAuthoritative (state : TranscriptState) (message : ChatMessage) (timestamp : DateTime) :
    TranscriptState :=
  { state with toRowTable := state.toRowTable.appendAuthoritative message timestamp }

/-- Take a report of a tool call into the table of the state. -/
def upsertTool (state : TranscriptState) (tool : ToolEvent) (timestamp : DateTime) :
    TranscriptState :=
  { state with toRowTable := state.toRowTable.upsertTool tool timestamp }

/-! ## Events -/

/-- Set a timestamp unless there is one. -/
def putTimestampIfAbsent (timestamps : Map String DateTime) (id : String) (ts : DateTime) :
    Map String DateTime :=
  if (timestamps.lookup id).isSome then timestamps else timestamps.insert id ts

/-- The steering overlay without the prompt. -/
def withoutSteering (steering : SteeringProjection) (clientMessageId : String) :
    SteeringProjection :=
  match steering with
  | .noSteering => .noSteering
  | .steeringPending pending text =>
    if pending = clientMessageId then .noSteering else .steeringPending pending text

/-- The turn that a prompt starts. -/
def promptTurn (turnId : Option String) (clientMessageId : String) : TranscriptTurnView :=
  ⟨.working, none, some (turnId.getD clientMessageId), some clientMessageId, none⟩

/-- A prompt that waits for its pickup is shown as steering; any other starts a turn. -/
def applyUserMessageSubmitted (state : TranscriptState) (event : TranscriptEvent)
    (clientMessageId text : String) (image : Option MessageImage) (awaitingPickup : Bool) :
    TranscriptState :=
  let submitted :=
    { state with
      submittedUsers := state.submittedUsers.set clientMessageId
        ⟨clientMessageId, text, image, awaitingPickup, event.ts⟩
      messageTimestamps :=
        putTimestampIfAbsent state.messageTimestamps clientMessageId event.ts }
  if awaitingPickup then
    { submitted with steering := .steeringPending clientMessageId text }
  else
    { submitted with
      activeReplyAnchor := some clientMessageId
      turn := promptTurn event.turnId clientMessageId }

/-- Whether the first reply to a prompt stands in front of the prompt. -/
def firstReplyIsEarly (state : TranscriptState) (clientMessageId : String) : Bool :=
  match messageRow state.authoritativeRows clientMessageId,
      state.firstAssistantRowByReplyTo.lookup clientMessageId with
  | some userRow, some firstReply => (compareRows userRow firstReply).isGT
  | _, _ => false

/-- The agent has picked the prompt up. -/
def pickUpUser (state : TranscriptState) (event : TranscriptEvent)
    (clientMessageId text : String) (image : Option MessageImage)
    (streamingBehavior : Option UserMessageStreamingBehavior) : TranscriptState :=
  let pickedUp := { state with pickedUpUsers := clientMessageId :: state.pickedUpUsers }
  let appended := pickedUp.appendAuthoritative (.user ⟨clientMessageId, text, .confirmed, image⟩)
    event.ts
  let anchored :=
    { appended with
      requiresReplyAnchoring :=
        appended.requiresReplyAnchoring || appended.firstReplyIsEarly clientMessageId
      steering := withoutSteering appended.steering clientMessageId }
  if streamingBehavior ≠ some .steer then
    { anchored with
      activeReplyAnchor := some clientMessageId
      turn := promptTurn event.turnId clientMessageId }
  else anchored

/-- A confirmation takes back an earlier failure. Without a pickup the prompt is only accepted, and
is shown as steering. -/
def applyUserMessageConfirmed (state : TranscriptState) (event : TranscriptEvent)
    (clientMessageId text : String) (image : Option MessageImage)
    (streamingBehavior : Option UserMessageStreamingBehavior) (semanticPickup : Bool) :
    TranscriptState :=
  let accepted :=
    { state with
      failedUsers := state.failedUsers.filter (· ≠ clientMessageId)
      acceptedUsers := clientMessageId :: state.acceptedUsers
      messageTimestamps := state.messageTimestamps.insert clientMessageId event.ts }
  if semanticPickup then
    accepted.pickUpUser event clientMessageId text image streamingBehavior
  else { accepted with steering := .steeringPending clientMessageId text }

/-- A failure ends the turn, unless the prompt was picked up or waits for its pickup. -/
def applyUserMessageFailed (state : TranscriptState) (event : TranscriptEvent)
    (clientMessageId message : String) : TranscriptState :=
  let failed :=
    { state with
      failedUsers := clientMessageId :: state.failedUsers
      messageTimestamps := state.messageTimestamps.insert clientMessageId event.ts
      steering := withoutSteering state.steering clientMessageId }
  let awaitingPickup :=
    ((state.submittedUsers.get? clientMessageId).map Submission.awaitingPickup).getD false
  if clientMessageId ∉ state.pickedUpUsers ∧ awaitingPickup = false then
    { failed with
      activeReplyAnchor := none
      turn := ⟨.error, none, some (event.turnId.getD clientMessageId), some clientMessageId,
        some message⟩ }
  else failed

/-- A delta goes on with the reply that is streamed, if it answers the same prompt. -/
def applyAssistantDeltaReceived (state : TranscriptState) (event : TranscriptEvent)
    (replyTo delta : String) : TranscriptState :=
  let streaming :=
    (state.streaming.filter fun message => message.inReplyTo = replyTo).getD ⟨replyTo, ""⟩
  { state with
    activeReplyAnchor := some replyTo
    streaming := some (streaming.appendDelta delta)
    turn := ⟨.streaming, none, some (event.turnId.getD replyTo), some replyTo, none⟩ }

/-- Note the row of a reply, and whether its prompt is missing or stands behind it. -/
def noteReply (state : TranscriptState) (messageId replyTo : String) :
    TranscriptState :=
  match messageRow state.authoritativeRows messageId with
  | none => state
  | some assistantRow =>
    { state with
      firstAssistantRowByReplyTo :=
        if (state.firstAssistantRowByReplyTo.lookup replyTo).isSome then
          state.firstAssistantRowByReplyTo
        else state.firstAssistantRowByReplyTo.insert replyTo assistantRow
      requiresReplyAnchoring := state.requiresReplyAnchoring ||
        (match messageRow state.authoritativeRows replyTo with
          | none => true
          | some userRow => (compareRows userRow assistantRow).isGT) }

/-- A committed reply gets a row and ends the turn. -/
def applyAssistantMessageCommitted (state : TranscriptState)
    (event : TranscriptEvent) (messageId replyTo text : String) : TranscriptState :=
  let noted :=
    { state with
      activeReplyAnchor := some replyTo
      assistantReplyTo := state.assistantReplyTo.insert messageId replyTo
      messageTimestamps := state.messageTimestamps.insert messageId event.ts }
  { (noted.appendAuthoritative (.assistant ⟨messageId, text⟩) event.ts).noteReply
      messageId replyTo with
    streaming := none
    turn := .idle }

/-- The turn ends without a further row. -/
def applyAssistantDoneReceived (state : TranscriptState) :
    TranscriptState :=
  { state with activeReplyAnchor := none, streaming := none, turn := .idle }

/-- A tool request gets a row, and the turn awaits the tool if a prompt is known that it works
for. -/
def applyToolRequested (state : TranscriptState) (event : TranscriptEvent)
    (toolCallId tool : String) (args : List (String × Json)) : TranscriptState :=
  let upserted :=
    { state with
      messageTimestamps := putTimestampIfAbsent state.messageTimestamps toolCallId event.ts }
      |>.upsertTool ⟨toolCallId, toolCallId, tool, args, .pending, .null, none⟩ event.ts
  let replyAnchor := upserted.turn.replyTo
    <|> upserted.streaming.map StreamingMessage.inReplyTo <|> upserted.activeReplyAnchor
  match replyAnchor with
  | none => upserted
  | some anchor =>
    { upserted with
      activeReplyAnchor := some anchor
      turn := ⟨.awaitingTool, none,
        some ((upserted.turn.turnId <|> event.turnId).getD anchor), some anchor, none⟩ }

/-- A call without an error has completed. -/
def finishedStatus (error : Option String) : ToolEventStatus :=
  if error.isNone then .completed else .failed

/-- A result is merged into the row of its call, and a turn that awaits a tool goes on working. -/
def applyToolFinished (state : TranscriptState) (event : TranscriptEvent)
    (toolCallId : String) (result : Json) (error : Option String) : TranscriptState :=
  let upserted :=
    { state with
      messageTimestamps := state.messageTimestamps.insert toolCallId event.ts }
      |>.upsertTool ⟨toolCallId, toolCallId, "", [], finishedStatus error, result, error⟩ event.ts
  if upserted.turn.status = .awaitingTool then
    { upserted with turn := ⟨.working, none, upserted.turn.turnId, upserted.turn.replyTo, none⟩ }
  else upserted

/-- A compaction gets a row and ends the turn. -/
def applyCompactionRecorded (state : TranscriptState) (event : TranscriptEvent)
    (summary : String) (tokensBefore : Option Int) : TranscriptState :=
  let recorded :=
    { state with
      activeReplyAnchor := none
      messageTimestamps := state.messageTimestamps.insert event.eventId event.ts }
  { recorded.appendAuthoritative (.compaction ⟨event.eventId, summary, tokensBefore⟩) event.ts with
    streaming := none
    turn := .idle }

/-- What an event does to the tables. -/
def apply (state : TranscriptState) (event : TranscriptEvent) :
    TranscriptState :=
  match event.body with
  | .userMessageSubmitted clientMessageId text image awaitingPickup =>
    state.applyUserMessageSubmitted event clientMessageId text image awaitingPickup
  | .userMessageConfirmed clientMessageId text image streamingBehavior semanticPickup =>
    state.applyUserMessageConfirmed event clientMessageId text image streamingBehavior
      semanticPickup
  | .userMessageFailed clientMessageId message =>
    state.applyUserMessageFailed event clientMessageId message
  | .assistantDeltaReceived replyTo delta =>
    state.applyAssistantDeltaReceived event replyTo delta
  | .assistantMessageCommitted messageId replyTo text =>
    state.applyAssistantMessageCommitted event messageId replyTo text
  | .assistantDoneReceived _ => state.applyAssistantDoneReceived
  | .toolRequested toolCallId tool args => state.applyToolRequested event toolCallId tool args
  | .toolFinished toolCallId result error =>
    state.applyToolFinished event toolCallId result error
  | .compactionRecorded summary tokensBefore =>
    state.applyCompactionRecorded event summary tokensBefore

/-! ## Projection -/

/-- The row of a submission that is neither picked up nor hidden. -/
def pendingRow (state : TranscriptState) (submitted : Submission) :
    Option ProjectedRow :=
  let failed := submitted.clientMessageId ∈ state.failedUsers
  if submitted.clientMessageId ∈ state.pickedUpUsers then none
  else if submitted.awaitingPickup = true ∧ ¬ failed then none
  else if submitted.clientMessageId ∈ state.acceptedUsers ∧ ¬ failed then none
  else
    some
      { message := .user ⟨submitted.clientMessageId, submitted.text,
          if failed then .failed else .pending, submitted.image⟩
        sortTimestamp := submitted.ts
        timestamp :=
          (state.messageTimestamps.lookup submitted.clientMessageId).getD submitted.ts
        arrival := state.arrivalCounter }

/-- The prompt that an assistant message answers. -/
def replyToOf (state : TranscriptState) : ChatMessage → Option String
  | .assistant message => state.assistantReplyTo.lookup message.id
  | _ => none

/-- Move each prompt that stands behind its first reply in front of that reply. -/
def anchorLatePrompts (state : TranscriptState) (rows : List ProjectedRow) : List ProjectedRow :=
  anchorLate (fun row => row.message.userId?) (fun row => state.replyToOf row.message) rows

/-- The rows of the table, and behind them those of the submissions that are still shown. -/
def projectedRows (state : TranscriptState) : List ProjectedRow :=
  state.authoritativeRows ++ state.submittedUsers.values.filterMap state.pendingRow

/-- The rows as they are shown. They are moved only where a reply may stand in front of its
prompt. -/
def orderedRows (state : TranscriptState) : List ProjectedRow :=
  if state.requiresReplyAnchoring then state.anchorLatePrompts state.projectedRows
  else state.projectedRows

/-- The projection of the tables. A time that was set for a message is shown before that of its
row. -/
def buildProjection (state : TranscriptState) (sessionId : String) : TranscriptProjection where
  messages := state.orderedRows.map ProjectedRow.message
  messageTimestamps := state.orderedRows.map fun row =>
    (state.messageTimestamps.lookup row.message.id).getD row.timestamp
  streaming := state.streaming
  turn := { state.turn with sessionId := some sessionId }
  steering := state.steering

end TranscriptState

/-! ## Updates -/

/-- The comparison that decides which stored rows are written again. Arguments and results are
compared as the texts of their values. -/
def sameMessage (a b : ChatMessage) : Bool :=
  match a, b with
  | .tool a, .tool b =>
    a.id = b.id ∧ a.toolCallId = b.toolCallId ∧ a.tool = b.tool ∧
      Json.fieldsText a.args = Json.fieldsText b.args ∧ a.status = b.status ∧
      a.result.text = b.result.text ∧ a.error = b.error
  | .user a, .user b => a = b
  | .assistant a, .assistant b => a = b
  | .compaction a, .compaction b => a = b
  | _, _ => false

/-- The first place from an index on at which two lists of stamped messages differ. -/
def firstChangedFrom (index : Nat) :
    List (ChatMessage × DateTime) → List (ChatMessage × DateTime) → Option Nat
  | [], [] => none
  | a :: previous, b :: next =>
    if sameMessage a.1 b.1 = false ∨ a.2 ≠ b.2 then some index
    else firstChangedFrom (index + 1) previous next
  | _, _ => some index

/-- The messages with their times. -/
def TranscriptProjection.stamped (projection : TranscriptProjection) :
    List (ChatMessage × DateTime) :=
  projection.messages.zip projection.messageTimestamps

/-- The first message from which the stored rows have to be written again. -/
def firstChangedIndex (previous next : TranscriptProjection) : Option Nat :=
  firstChangedFrom 0 previous.stamped next.stamped

/-- What a batch has changed: the events of it that were accepted, and the new projection. -/
structure TranscriptProjectionUpdate where
  acceptedEvents : List TranscriptEvent
  projection : TranscriptProjection
  firstChangedMessageIndex : Option Nat

namespace TranscriptProjectionReducer

/-- Apply an event of the session that has not been seen, and collect it. -/
def accept (progress : TranscriptProjectionReducer × List TranscriptEvent)
    (event : TranscriptEvent) : TranscriptProjectionReducer × List TranscriptEvent :=
  let (reducer, accepted) := progress
  if event.sessionId ≠ reducer.sessionId ∨ event.eventId ∈ reducer.seenEventIds then progress
  else
    ({ reducer with
        seenEventIds := event.eventId :: reducer.seenEventIds
        state := reducer.state.apply event },
      accepted ++ [event])

/-- Apply a batch. A batch without an accepted event changes nothing. -/
def applyAll (reducer : TranscriptProjectionReducer) (events : List TranscriptEvent) :
    TranscriptProjectionReducer × TranscriptProjectionUpdate :=
  let (reduced, accepted) := events.foldl accept (reducer, [])
  if accepted = [] then
    (reduced, ⟨[], reduced.projection, none⟩)
  else
    let next := reduced.state.buildProjection reduced.sessionId
    ({ reduced with projection := next },
      ⟨accepted, next, firstChangedIndex reduced.projection next⟩)

end TranscriptProjectionReducer

end OutpostPi.App
