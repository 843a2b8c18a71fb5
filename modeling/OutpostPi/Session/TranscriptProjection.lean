import OutpostPi.Lib.Decimal
import OutpostPi.Lib.Indexed
import OutpostPi.Lib.KeepFirst
import OutpostPi.Session.TranscriptEvent

/-!
# Reconciliation and projection of a transcript

The SDK keeps its own messages beside the custom entries of the extension.
`reconcileTranscriptContextEntries` makes one transcript of both: decoded custom entries are
authoritative, and a message of the SDK is mapped to fallback events that are left out where a
durable fact claims them. `TranscriptEventLog.hydrate` installs the result, and
`projectSessionHistory` makes of it what is replayed to an app.
-/

set_option autoImplicit false

namespace OutpostPi.Session

open OutpostPi.Lib

/-! ## Context entries of the SDK -/

/-- A block of a content array. `text` and `id` have gone through `String`. -/
structure SdkBlock where
  type : Option String
  text : String
  id : Option String
  name : String
  arguments : Option (List (String × Json))
  data : Option String
  mimeType : Option String

/-- A content value. The blocks of an array that are not objects are `none`. -/
inductive SdkContent
  | text (text : String)
  | blocks (blocks : List (Option SdkBlock))
  /-- An object, with its own content array and text, and its JSON text. -/
  | record (content : Option (List (Option SdkBlock))) (text : Option String) (json : String)
  /-- A number or a truth value. -/
  | scalar (text : String)
  | missing

/-- The token counts of a message of the SDK. -/
structure SdkUsage where
  input : Option JsonNumber
  output : Option JsonNumber

/-- A message of the SDK, of any role. -/
structure SdkTranscriptMessage where
  role : String
  content : SdkContent
  summary : Option String
  timestamp : Option Int
  toolCallId : Option String
  isError : Bool
  usage : Option SdkUsage
  tokensBefore : Option JsonNumber

/-- A context entry. A message entry may come without its message. -/
inductive SdkTranscriptContextEntry
  | message (message : Option SdkTranscriptMessage)
  | compaction (summary : Option String) (tokensBefore : Option JsonNumber)
      (timestamp : Option String)
  | custom (customType : Option String) (data : Option Json)
  | other

/-- Only custom entries hold events of the transcript. -/
def decodeDurableTranscriptEntry : SdkTranscriptContextEntry → DurableTranscriptEventDecode
  | .custom customType data => decodeCustomEntry customType data
  | _ => .notTranscript

/-! ## Fallback events -/

/-- `String` of an integer. -/
def numberText : Int → String
  | .ofNat n => toDecimal n
  | .negSucc n => "-" ++ toDecimal (n + 1)

/-- The text of a text block, and no text of another one. -/
def stringifyBlock : Option SdkBlock → String
  | some block => if block.type = some "text" then block.text else ""
  | none => ""

/-- The text of the content of a user message. -/
def stringifyContent : SdkContent → String
  | .text text => text
  | .blocks blocks => String.join (blocks.map stringifyBlock)
  | _ => ""

/-- The text of the content of a tool result, for which every value has one. -/
def stringifyToolResult : SdkContent → String
  | .text text => text
  | .blocks blocks => String.join (blocks.map stringifyBlock)
  | .record (some blocks) _ _ => String.join (blocks.map stringifyBlock)
  | .record none (some text) _ => text
  | .record none none json => json
  | .scalar text => text
  | .missing => ""

/-- The image of an image block that has its data and its type. -/
def imageOfBlock : Option SdkBlock → Option WireImage
  | some block =>
    if block.type = some "image" then
      match block.data, block.mimeType with
      | some data, some mime => some ⟨data, mime, false⟩
      | _, _ => none
    else none
  | none => none

/-- The images of the content of a user message. -/
def imagesFromContent : SdkContent → List WireImage
  | .blocks blocks => blocks.filterMap imageOfBlock
  | _ => []

/-- The id of an event that is made of a message of the SDK: made again, it is the same. -/
def deterministicTranscriptEventId (sessionId kind stableKey : String) : String :=
  "server:" ++ sessionId ++ ":" ++ kind ++ ":" ++ stableKey

/-- The id that stands for a message of the SDK, which has none of its own. -/
def syncId (ts : Int) : String := "sync_" ++ numberText ts

/-- The count that `?? 0` puts in place of one that is missing. -/
def zeroTokens : JsonNumber := ⟨0, 0⟩

/-- The event of a fact under its deterministic id. -/
def fallbackEvent (sessionId : String) (ts : Int) (stableKey : String) (fact : TranscriptFact) :
    TranscriptEvent :=
  ⟨deterministicTranscriptEventId sessionId fact.kind stableKey, sessionId, ts, none, fact⟩

namespace SdkTranscriptMessage

/-- The time of a message, the epoch where it has none. -/
def ts (message : SdkTranscriptMessage) : Int := message.timestamp.getD 0

/-- The message is a compaction, by either of its two roles. -/
def isCompaction (message : SdkTranscriptMessage) : Bool :=
  message.role = "compaction" || message.role = "compactionSummary"

/-- The summary of a compaction, which each of its two roles keeps in a field of its own. -/
def compactionText (message : SdkTranscriptMessage) : String :=
  if message.role = "compactionSummary" then message.summary.getD ""
  else
    match message.content with
    | .text text => text
    | _ => ""

/-- The fallback fact of a user message. -/
def userFact (message : SdkTranscriptMessage) : TranscriptFact :=
  let images := imagesFromContent message.content
  .userConfirmed (syncId message.ts) (stringifyContent message.content)
    (if images.isEmpty then none else some images) none

/-- The usage of a message, as it is sent. -/
def wireUsage (message : SdkTranscriptMessage) : Option Usage :=
  message.usage.map fun usage =>
    ⟨usage.input.getD zeroTokens, usage.output.getD zeroTokens⟩

/-- The blocks of an assistant message with their indexes. -/
def assistantBlocks (message : SdkTranscriptMessage) : List (Option SdkBlock × Nat) :=
  match message.content with
  | .blocks blocks => blocks.zipIdx
  | _ => []

end SdkTranscriptMessage

/-- The fallback event of a user message. -/
def fallbackUserEvent (sessionId : String) (message : SdkTranscriptMessage) : TranscriptEvent :=
  fallbackEvent sessionId message.ts (syncId message.ts) message.userFact

/-- The event of one block of an assistant message: a text that is not empty, or a tool call. -/
def blockEvent (sessionId : String) (message : SdkTranscriptMessage)
    (lastUserId : Option String) (raw : Option SdkBlock) (blockIndex : Nat) :
    Option TranscriptEvent :=
  raw.bind fun block =>
    let sync := syncId message.ts
    if block.type = some "text" then
      if block.text = "" then none
      else
        let messageId := sync ++ ":assistant:" ++ toDecimal blockIndex
        some (fallbackEvent sessionId message.ts messageId
          (.assistantCommitted messageId (lastUserId.getD sync) block.text message.wireUsage))
    else if block.type = some "toolCall" then
      let toolCallId := block.id.getD (sync ++ ":tool:" ++ toDecimal blockIndex)
      some (fallbackEvent sessionId message.ts toolCallId
        (.toolRequested toolCallId block.name (.object (block.arguments.getD []))))
    else none

/-- The fallback events of one message. -/
def mapMessage (sessionId : String) (lastUserId : Option String) (messageIndex : Nat)
    (message : SdkTranscriptMessage) : List TranscriptEvent :=
  if message.isCompaction then
    [fallbackEvent sessionId message.ts (numberText message.ts)
      (.compactionRecorded message.compactionText
        (some (message.tokensBefore.getD zeroTokens)))]
  else if message.role = "user" then
    [fallbackUserEvent sessionId message]
  else if message.role = "assistant" then
    message.assistantBlocks.filterMap fun block =>
      blockEvent sessionId message lastUserId block.1 block.2
  else if message.role = "toolResult" then
    let toolCallId := message.toolCallId.getD
      (syncId message.ts ++ ":tool-result:" ++ toDecimal messageIndex)
    let text := stringifyToolResult message.content
    [fallbackEvent sessionId message.ts toolCallId
      (if message.isError then .toolFinished toolCallId none (some text)
        else .toolFinished toolCallId (some (.string text)) none)]
  else []

/-- The user message that later assistant blocks reply to. -/
def nextUserId (lastUserId : Option String) (message : SdkTranscriptMessage) : Option String :=
  if message.isCompaction then lastUserId
  else if message.role = "user" then some (syncId message.ts) else lastUserId

/-- The fallback events of all messages, with the user message and the index at which the pass has
arrived. -/
def mapPreDurableSdkMessages (sessionId : String) :
    Option String → Nat → List SdkTranscriptMessage → List TranscriptEvent
  | _, _, [] => []
  | lastUserId, messageIndex, message :: rest =>
    mapMessage sessionId lastUserId messageIndex message ++
      mapPreDurableSdkMessages sessionId (nextUserId lastUserId message) (messageIndex + 1) rest

/-- The block of an assistant message has an event. -/
def countsAsEvent : Option SdkBlock → Bool
  | some block => block.type = some "toolCall" || block.type = some "text" && block.text ≠ ""
  | none => false

/-- How many events the mapping makes of a message, counted again. -/
def projectedEventCount (message : SdkTranscriptMessage) : Nat :=
  if message.role = "user" ∨ message.role = "toolResult" ∨ message.role = "compaction" ∨
      message.role = "compactionSummary" then 1
  else if message.role ≠ "assistant" then 0
  else
    match message.content with
    | .blocks blocks => blocks.countP countsAsEvent
    | _ => 0

/-- The messages among the entries, with the indexes of their entries. -/
def messageSources (entries : List SdkTranscriptContextEntry) :
    List (SdkTranscriptMessage × Nat) :=
  entries.zipIdx.filterMap fun source =>
    match source.1 with
    | .message (some message) => some (message, source.2)
    | _ => none

/-- Cut the mapped events into the parts of the messages, by their counts. -/
def sliceBySource (mapped : List TranscriptEvent) :
    Nat → List (SdkTranscriptMessage × Nat) → List (Nat × List TranscriptEvent)
  | _, [] => []
  | cursor, source :: rest =>
    let count := projectedEventCount source.1
    (source.2, (mapped.drop cursor).take count) :: sliceBySource mapped (cursor + count) rest

/-- The fallback events of each message entry, under the index of the entry. -/
def indexPreDurableContextEvents (sessionId : String)
    (entries : List SdkTranscriptContextEntry) : List (Nat × List TranscriptEvent) :=
  let sources := messageSources entries
  sliceBySource (mapPreDurableSdkMessages sessionId none 0 (sources.map Prod.fst)) 0 sources

/-! ## Reconciliation -/

/-- The fallback events of an entry, none for what is no message. -/
def fallbackAt (fallbackByIndex : List (Nat × List TranscriptEvent)) (index : Nat) :
    List TranscriptEvent :=
  (valueAt fallbackByIndex index).getD []

/-- The decoded entries, the first of each event id, moved to the session. -/
def decodedByIndex (sessionId : String) (entries : List SdkTranscriptContextEntry) :
    List (Nat × TranscriptEvent) :=
  keepFirst (fun decoded => decoded.2.eventId) [] <| entries.zipIdx.filterMap fun source =>
    match decodeDurableTranscriptEntry source.1 with
    | .decoded event => some (source.2, { event with sessionId := sessionId })
    | _ => none

/-- What one-for-one reconciliation of user messages compares. The code puts the two into a JSON
text. That text keeps the order of the keys of an image: here `WireImage.mimeFirst` keeps it, since
an image has exactly the two keys `data` and `mime`. -/
def transcriptUserContentSignature (text : String) (images : Option (List WireImage)) :
    String × List WireImage :=
  (text, images.getD [])

/-- The signature of an event that is a user message. -/
def userSignature (event : TranscriptEvent) : Option (String × List WireImage) :=
  event.fact.userMessage?.map fun message =>
    transcriptUserContentSignature message.2.1 message.2.2

/-- The nearest entry before `index` that has a fallback user event of that content and is not
claimed yet. -/
def nearestFallback (fallbackByIndex : List (Nat × List TranscriptEvent)) (claimed : List Nat)
    (signature : String × List WireImage) : Nat → Option Nat
  | 0 => none
  | index + 1 =>
    if index ∉ claimed ∧ (fallbackAt fallbackByIndex index).any
        (fun event => decide (userSignature event = some signature)) then
      some index
    else nearestFallback fallbackByIndex claimed signature index

/-- The claim of a durable user fact on the fallback event of an entry. -/
structure UserClaim where
  durableIndex : Nat
  clientMessageId : String
  fallbackIndex : Nat

/-- The claims of the durable user facts, in the order in which they are made. -/
def bindDurableUserClaims (fallbackByIndex : List (Nat × List TranscriptEvent)) :
    List (Nat × TranscriptEvent) → List String → List Nat → List UserClaim
  | [], _, _ => []
  | durable :: rest, clientMessageIds, claimed =>
    match durable.2.fact.userMessage? with
    | none => bindDurableUserClaims fallbackByIndex rest clientMessageIds claimed
    | some (clientMessageId, text, images) =>
      if clientMessageId ∈ clientMessageIds then
        bindDurableUserClaims fallbackByIndex rest clientMessageIds claimed
      else
        match nearestFallback fallbackByIndex claimed
            (transcriptUserContentSignature text images) durable.1 with
        | none =>
          bindDurableUserClaims fallbackByIndex rest (clientMessageId :: clientMessageIds) claimed
        | some index =>
          ⟨durable.1, clientMessageId, index⟩ :: bindDurableUserClaims fallbackByIndex rest
            (clientMessageId :: clientMessageIds) (index :: claimed)

/-- The key under which tool facts collide, absent in other facts. -/
def toolCollisionKey : TranscriptFact → Option (String × String)
  | .toolRequested toolCallId _ _ => some ("tool_requested", toolCallId)
  | .toolFinished toolCallId _ _ => some ("tool_finished", toolCallId)
  | _ => none

/-- The message id of a committed reply. -/
def assistantMessageId : TranscriptFact → Option String
  | .assistantCommitted messageId _ _ _ => some messageId
  | _ => none

/-- The event records a compaction of that time. -/
def isCompactionAt (ts : Int) (event : TranscriptEvent) : Bool :=
  match event.fact with
  | .compactionRecorded _ _ => event.ts = ts
  | _ => false

/-- A durable fact stands for the fallback event. `durables` is what the sets of the first pass
are filled from. -/
def isClaimedByDurable (durables : List TranscriptEvent) (claimed : List Nat)
    (fallbackIndex : Nat) (event : TranscriptEvent) : Bool :=
  match event.fact with
  | .toolRequested .. | .toolFinished .. =>
    durables.any fun durable => toolCollisionKey durable.fact = toolCollisionKey event.fact
  | .userSubmitted .. | .userConfirmed .. => fallbackIndex ∈ claimed
  | .assistantCommitted messageId _ _ _ =>
    durables.any fun durable => assistantMessageId durable.fact = some messageId
  | _ => durables.any fun durable => durable.eventId = event.eventId

section Reconcile

variable (dateParse : String → Option Int) (sessionId : String)
  (entries : List SdkTranscriptContextEntry)

/-- The claims of the durable user facts among the entries. -/
def userClaims : List UserClaim :=
  bindDurableUserClaims (indexPreDurableContextEvents sessionId entries)
    (decodedByIndex sessionId entries) [] []

/-- The entries whose fallback user event is claimed. -/
def claimedFallbackUserIndexes : List Nat :=
  (userClaims sessionId entries).map UserClaim.fallbackIndex

/-- The fallback event of a compaction entry. -/
def compactionEvent (summary : Option String) (tokensBefore : Option JsonNumber)
    (timestamp : Option String) : TranscriptEvent :=
  let ts := (timestamp.bind dateParse).getD 0
  fallbackEvent sessionId ts (numberText ts)
    (.compactionRecorded (summary.getD "") (some (tokensBefore.getD zeroTokens)))

/-- What one entry contributes. -/
def contribution (index : Nat) (entry : SdkTranscriptContextEntry) : List TranscriptEvent :=
  let decoded := decodedByIndex sessionId entries
  let durables := decoded.map Prod.snd
  match valueAt decoded index with
  | some durable => [durable]
  | none =>
    match entry with
    | .message _ =>
      (fallbackAt (indexPreDurableContextEvents sessionId entries) index).filter fun event =>
        !isClaimedByDurable durables (claimedFallbackUserIndexes sessionId entries) index event
    | .compaction summary tokensBefore timestamp =>
      let event := compactionEvent dateParse sessionId summary tokensBefore timestamp
      if durables.any (isCompactionAt event.ts) then [] else [event]
    | _ => []

/-- The events of the output, each with the index of the entry that it comes from. -/
def reconcileByEntry : List (Nat × TranscriptEvent) :=
  entries.zipIdx.flatMap fun source =>
    (contribution dateParse sessionId entries source.2 source.1).map (Prod.mk source.2)

/-- The transcript of the entries, in their order. -/
def reconcileTranscriptContextEntries : List TranscriptEvent :=
  (reconcileByEntry dateParse sessionId entries).map Prod.snd

end Reconcile

/-! ## The log -/

/-- The events in the order of their installation, of which no two have the same identity. -/
structure TranscriptEventLog where
  events : List TranscriptEvent
  distinct : (events.map TranscriptEvent.identity).Nodup

namespace TranscriptEventLog

/-- The log of a fresh process. -/
def empty : TranscriptEventLog := ⟨[], List.nodup_nil⟩

/-- An event of that identity is installed. -/
def has (log : TranscriptEventLog) (identity : String × String) : Bool :=
  (log.events.map TranscriptEvent.identity).contains identity

/-- Install an event unless one of its identity is there. -/
def install (log : TranscriptEventLog) (event : TranscriptEvent) : TranscriptEventLog :=
  if known : event.identity ∈ log.events.map TranscriptEvent.identity then log
  else ⟨log.events ++ [event], by
    rw [List.map_append, List.nodup_append]
    refine ⟨log.distinct, List.nodup_singleton _, ?_⟩
    intro a mem b here same
    exact known (List.mem_singleton.mp here ▸ same ▸ mem)⟩

/-- Install the events of a session file in their order. -/
def hydrate (log : TranscriptEventLog) (events : List TranscriptEvent) : TranscriptEventLog :=
  events.foldl install log

/-- The installed events of a session. -/
def forSession (log : TranscriptEventLog) (sessionId : String) : List TranscriptEvent :=
  log.events.filter fun event => event.sessionId = sessionId

end TranscriptEventLog

/-! ## The history -/

/-- What is replayed to an app. -/
inductive SessionHistoryEvent
  | userInput (ts : Int) (id text : String) (images : Option (List WireImage))
      (streamingBehavior : Option StreamingBehavior)
  | agentMessage (ts : Int) (inReplyTo text messageId : String) (usage : Option Usage)
  | toolRequest (ts : Int) (toolCallId tool : String) (args : Json)
  | toolResult (ts : Int) (toolCallId : String) (result : Option Json) (error : Option String)
  | compaction (ts : Int) (summary : String) (tokensBefore : JsonNumber)
  | error (ts : Int) (inReplyTo : Option String) (code message : String)

/-- The sets of what has been put out, by what each is a set of. -/
inductive HistoryKey
  | user (clientMessageId : String)
  | toolRequest (toolCallId : String)
  | toolFinish (toolCallId : String)
  | assistant (messageId : String)
  | compaction (eventId : String)
  | error (eventId : String)
  deriving DecidableEq

/-- An empty list of images is left out of what is sent. -/
def wireImages : Option (List WireImage) → Option (List WireImage)
  | some (image :: images) => some (image :: images)
  | _ => none

/-- The wire event of a canonical event, with its key. Drafts and failures of user messages are
not replayed, nor is a request of the agent network that has no result. -/
def historyEntry (finishedToolIds : List String) (event : TranscriptEvent) :
    Option (HistoryKey × SessionHistoryEvent) :=
  match event.fact with
  | .userSubmitted clientMessageId text images =>
    some (.user clientMessageId,
      .userInput event.ts clientMessageId text (wireImages images) none)
  | .userConfirmed clientMessageId text images streamingBehavior =>
    some (.user clientMessageId,
      .userInput event.ts clientMessageId text (wireImages images) streamingBehavior)
  | .assistantCommitted messageId replyTo text usage =>
    some (.assistant messageId, .agentMessage event.ts replyTo text messageId usage)
  | .toolRequested toolCallId tool args =>
    if tool = "agent-network" ∧ toolCallId ∉ finishedToolIds then none
    else some (.toolRequest toolCallId, .toolRequest event.ts toolCallId tool args)
  | .toolFinished toolCallId result error =>
    some (.toolFinish toolCallId,
      .toolResult event.ts toolCallId (if error.isSome then none else result) error)
  | .compactionRecorded summary tokensBefore =>
    some (.compaction event.eventId,
      .compaction event.ts summary (tokensBefore.getD zeroTokens))
  | .providerError replyTo code message =>
    some (.error event.eventId,
      .error event.ts (replyTo.filter fun text => text ≠ "") code message)
  | .userFailed .. | .assistantDelta .. | .assistantDone .. => none

/-- The calls that have a result among the events. -/
def finishedToolIds (events : List TranscriptEvent) : List String :=
  events.filterMap fun event =>
    match event.fact with
    | .toolFinished toolCallId _ _ => some toolCallId
    | _ => none

/-- The first event of each key is shown. -/
def transcriptEventsToSessionHistory (events : List TranscriptEvent) :
    List SessionHistoryEvent :=
  (keepFirst Prod.fst [] (events.filterMap (historyEntry (finishedToolIds events)))).map Prod.snd

/-- The first event of each identity is kept. -/
def dedupeTranscriptEvents (events : List TranscriptEvent) : List TranscriptEvent :=
  keepFirst TranscriptEvent.identity [] events

/-- The items that are replayed, and whether earlier ones are cut off. -/
structure SessionHistoryProjection where
  events : List SessionHistoryEvent
  truncated : Bool

/-- The last items of the history of a session. A limit that is not positive leaves none. -/
def projectSessionHistory (sessionId : String) (events : List TranscriptEvent) (limit : Int) :
    SessionHistoryProjection :=
  let deduped := (dedupeTranscriptEvents events).filter fun event => event.sessionId = sessionId
  let allEvents := transcriptEventsToSessionHistory deduped
  let effectiveLimit := (max 0 limit).toNat
  { events := if 0 < effectiveLimit then allEvents.drop (allEvents.length - effectiveLimit) else []
    truncated := decide (effectiveLimit < allEvents.length) }

end OutpostPi.Session
