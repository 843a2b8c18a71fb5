import OutpostPi.Lib.Decimal
import OutpostPi.Lib.JsValue

/-!
# Fallback events of raw SDK messages

What `indexPreDurableContextEvents` does with the context entries as the SDK hands them over:
every entry, message, content and block is any value of the language, and nothing of it has been
checked or converted before. `mapPreDurableSdkMessagesToTranscriptEvents` makes the events of all
messages in one pass, `projectedEventCount` counts again what it will have made of a message, and
the counts cut the events into the parts of the entries.

A result is absent where the code throws a `TypeError`: a property of `undefined` or `null` is
read, or an object has no text.
-/

set_option autoImplicit false

namespace OutpostPi.Session.Fallback

open OutpostPi.Lib OutpostPi.Lib.Js

/-! ## Conversions of the language -/

/-- The texts that the language makes of values. A conversion of an object is taken to depend on
the object alone, as it does for values read from a session file. -/
structure Conversions where
  /-- `String` of a number, also in a template literal. -/
  numberText : Number → Str
  bigintText : Int → Str
  symbolText : Nat → Str
  /-- `String` of an object or a function, absent where the conversion throws. -/
  objectText : Value → Option Str
  /-- `JSON.stringify` of an object: absent where it throws, and it may return `undefined`. -/
  jsonText : Value → Option (Option Str)

/-- `String(value)`. -/
def Conversions.string (c : Conversions) : Value → Option Str
  | .undefined => some (units "undefined")
  | .null => some (units "null")
  | .boolean true => some (units "true")
  | .boolean false => some (units "false")
  | .number value => some (c.numberText value)
  | .string text => some text
  | .symbol id => some (c.symbolText id)
  | .bigint value => some (c.bigintText value)
  | .function id => c.objectText (.function id)
  | .object id => c.objectText (.object id)

/-- `value ?? fallback`. -/
def orElse (value fallback : Value) : Value :=
  match value with
  | .undefined | .null => fallback
  | value => value

/-- The value counts as true in a condition. -/
def isTruthy : Value → Bool
  | .undefined | .null => false
  | .boolean value => value
  | .number .nan | .number .negativeZero => false
  | .number (.infinity _) => true
  | .number (.finite value) => value != 0
  | .string text => !text.isEmpty
  | .bigint value => value != 0
  | .symbol _ | .function _ | .object _ => true

/-- The own properties of an object. -/
def ownProperties (heap : Heap) (id : Nat) : Properties :=
  match heap.read id with
  | .array _ others => others
  | .record _ properties => properties

/-- `value.key` for every key. -/
def fieldsOf (heap : Heap) : Value → Option (Str → Value)
  | .undefined | .null => none
  | .object id => some (ownProperties heap id).read
  | _ => some fun _ => .undefined

/-- The items of an array as they are iterated, a hole being `undefined`. -/
def arrayItems (heap : Heap) : Value → Option (List Value)
  | .object id =>
    match heap.read id with
    | .array slots _ => some (slots.map fun slot => slot.getD .undefined)
    | .record _ _ => none
  | _ => none

/-- `typeof value === "object" && value !== null && !Array.isArray(value)`. -/
def isRecord (heap : Heap) (value : Value) : Bool :=
  match value with
  | .object _ => (arrayItems heap value).isNone
  | _ => false

/-- `typeof value === "number" ? value : 0`. -/
def numberOrZero : Value → Number
  | .number value => value
  | _ => .finite 0

/-- `typeof value === "string" ? value : ""`. -/
def stringOrEmpty : Value → Str
  | .string text => text
  | _ => []

/-! ## Events -/

/-- An image of a user message. -/
structure Image where
  data : Str
  mime : Str

/-- What `?? 0` leaves of the usage of a message. -/
structure Usage where
  inputTokens : Value
  outputTokens : Value

/-- What an event of a message says. -/
inductive Fact
  | compactionRecorded (summary : Str) (tokensBefore : Number)
  | userConfirmed (clientMessageId text : Str) (images : Option (List Image))
  | assistantCommitted (messageId replyTo text : Str) (usage : Option Usage)
  /-- Without arguments of its own a call has an empty record. -/
  | toolRequested (toolCallId tool : Str) (args : Option Value)
  | toolSucceeded (toolCallId : Str) (result : Option Str)
  | toolFailed (toolCallId : Str) (error : Option Str)

/-- The name of a fact in the id of its event. -/
def Fact.kind : Fact → String
  | .compactionRecorded _ _ => "compaction_recorded"
  | .userConfirmed _ _ _ => "user_confirmed"
  | .assistantCommitted _ _ _ _ => "assistant_committed"
  | .toolRequested _ _ _ => "tool_requested"
  | .toolSucceeded _ _ | .toolFailed _ _ => "tool_finished"

/-- An event of the transcript. -/
structure Event where
  eventId : Str
  sessionId : Str
  ts : Number
  fact : Fact

/-- The id of an event that is made of a message: made again, it is the same. -/
def deterministicTranscriptEventId (sessionId : Str) (kind : String) (stableKey : Str) : Str :=
  units "server:" ++ sessionId ++ units ":" ++ units kind ++ units ":" ++ stableKey

/-- The event of a fact under its deterministic id. -/
def fallbackEvent (sessionId : Str) (ts : Number) (stableKey : Str) (fact : Fact) : Event :=
  ⟨deterministicTranscriptEventId sessionId fact.kind stableKey, sessionId, ts, fact⟩

section Messages

variable (c : Conversions) (heap : Heap)

/-! ## Contents -/

/-- The text of one block in `stringifyContent`. -/
def stringifyBlock : Value → Option Str
  | .object id =>
    let typed := (ownProperties heap id).read
    if typed (units "type") = .string (units "text") then
      c.string (orElse (typed (units "text")) (.string []))
    else some []
  | _ => some []

/-- The text of a content, the texts of its blocks put together. -/
def stringifyContent (content : Value) : Option Str :=
  match content with
  | .string text => some text
  | content =>
    match arrayItems heap content with
    | some items => (items.mapM (stringifyBlock c heap)).map List.flatten
    | none => some []

/-- An object without a content array and a text becomes its JSON text, or no text at all where
`JSON.stringify` throws. -/
def stringifyToolResult (value : Value) : Option (Option Str) :=
  match value with
  | .string text => some (some text)
  | .undefined | .null => some (some [])
  | .object id =>
    if (arrayItems heap (.object id)).isSome then
      (stringifyContent c heap (.object id)).map some
    else
      let obj := (ownProperties heap id).read
      if (arrayItems heap (obj (units "content"))).isSome then
        (stringifyContent c heap (obj (units "content"))).map some
      else
        match obj (units "text") with
        | .string text => some (some text)
        | _ => some ((c.jsonText (.object id)).getD (some []))
  | value => (c.string value).map some

/-- The image of an image block whose data and type are strings. -/
def imageOfBlock : Value → Option Image
  | .object id =>
    let typed := (ownProperties heap id).read
    if typed (units "type") = .string (units "image") then
      match typed (units "data"), typed (units "mimeType") with
      | .string data, .string mime => some ⟨data, mime⟩
      | _, _ => none
    else none
  | _ => none

/-- The images of a content that is an array. -/
def imagesFromContent (content : Value) : List Image :=
  ((arrayItems heap content).getD []).filterMap (imageOfBlock heap)

/-! ## The mapping pass

A message that is not `undefined` or `null` is given by its properties. -/

/-- The time of a message, the epoch where it has none. -/
def ts (message : Str → Value) : Number := numberOrZero (message (units "timestamp"))

/-- The id that stands for a message, which has none of its own. -/
def syncId (message : Str → Value) : Str := units "sync_" ++ c.numberText (ts message)

/-- The role of a message is exactly that string. -/
def hasRole (message : Str → Value) (role : String) : Bool :=
  message (units "role") = .string (units role)

/-- The message is a compaction, by either of its two roles. -/
def isCompaction (message : Str → Value) : Bool :=
  hasRole message "compaction" || hasRole message "compactionSummary"

/-- The event of a compaction, which each of its two roles keeps in a field of its own. -/
def compactionEvent (sessionId : Str) (message : Str → Value) : Event :=
  let summary :=
    if hasRole message "compactionSummary" then stringOrEmpty (message (units "summary"))
    else stringOrEmpty (message (units "content"))
  fallbackEvent sessionId (ts message) (c.numberText (ts message))
    (.compactionRecorded summary (numberOrZero (message (units "tokensBefore"))))

/-- The event of a user message. Its content must have a text. -/
def userEvent (sessionId : Str) (message : Str → Value) : Option Event :=
  let images := imagesFromContent heap (message (units "content"))
  (stringifyContent c heap (message (units "content"))).map fun text =>
    fallbackEvent sessionId (ts message) (syncId c message)
      (.userConfirmed (syncId c message) text (if images.isEmpty then none else some images))

/-- The usage of a message, if it has a truthy one. -/
def wireUsage (message : Str → Value) : Option Usage :=
  let usage := message (units "usage")
  if isTruthy usage then
    (fieldsOf heap usage).map fun fields =>
      ⟨orElse (fields (units "input")) (.number (.finite 0)),
        orElse (fields (units "output")) (.number (.finite 0))⟩
  else none

/-- The event of one block of an assistant message, if it has one. -/
def blockEvent (sessionId : Str) (message : Str → Value) (lastUserId : Option Str)
    (blockIndex : Nat) : Value → Option (Option Event)
  | .object id =>
    let block := (ownProperties heap id).read
    if block (units "type") = .string (units "text") then
      (c.string (orElse (block (units "text")) (.string []))).map fun text =>
        if text = [] then none
        else
          let messageId := syncId c message ++ units ":assistant:" ++ units (toDecimal blockIndex)
          some (fallbackEvent sessionId (ts message) messageId
            (.assistantCommitted messageId (lastUserId.getD (syncId c message)) text
              (wireUsage heap message)))
    else if block (units "type") = .string (units "toolCall") then
      let unnamed := syncId c message ++ units ":tool:" ++ units (toDecimal blockIndex)
      (c.string (orElse (block (units "id")) (.string unnamed))).bind fun toolCallId =>
        (c.string (orElse (block (units "name")) (.string []))).map fun tool =>
          let args := block (units "arguments")
          some (fallbackEvent sessionId (ts message) toolCallId
            (.toolRequested toolCallId tool (if isRecord heap args then some args else none)))
    else some none
  | _ => some none

/-- The events of the blocks from one index on. -/
def assistantEvents (sessionId : Str) (message : Str → Value) (lastUserId : Option Str) :
    Nat → List Value → Option (List Event)
  | _, [] => some []
  | blockIndex, raw :: rest =>
    (blockEvent c heap sessionId message lastUserId blockIndex raw).bind fun event =>
      (assistantEvents sessionId message lastUserId (blockIndex + 1) rest).map
        (event.toList ++ ·)

/-- The event of a tool result. A message without a call id gets one from its index. -/
def toolResultEvent (sessionId : Str) (messageIndex : Nat) (message : Str → Value) :
    Option Event :=
  let unnamed := syncId c message ++ units ":tool-result:" ++ units (toDecimal messageIndex)
  (c.string (orElse (message (units "toolCallId")) (.string unnamed))).bind fun toolCallId =>
    (stringifyToolResult c heap (message (units "content"))).map fun text =>
      fallbackEvent sessionId (ts message) toolCallId
        (if isTruthy (message (units "isError")) then .toolFailed toolCallId text
          else .toolSucceeded toolCallId text)

/-- The body of the loop: what is pushed for one message. -/
def mapMessage (sessionId : Str) (lastUserId : Option Str) (messageIndex : Nat)
    (value : Value) : Option (List Event) :=
  (fieldsOf heap value).bind fun message =>
    if isCompaction message then some [compactionEvent c sessionId message]
    else if hasRole message "user" then
      (userEvent c heap sessionId message).map ([·])
    else if hasRole message "assistant" then
      assistantEvents c heap sessionId message lastUserId 0
        ((arrayItems heap (message (units "content"))).getD [])
    else if hasRole message "toolResult" then
      (toolResultEvent c heap sessionId messageIndex message).map ([·])
    else some []

/-- `lastUserId` after a message. -/
def nextUserId (lastUserId : Option Str) (value : Value) : Option Str :=
  match fieldsOf heap value with
  | none => lastUserId
  | some message =>
    if isCompaction message then lastUserId
    else if hasRole message "user" then some (syncId c message) else lastUserId

/-- The loop from one message on. -/
def mapMessages (sessionId : Str) : Option Str → Nat → List Value → Option (List Event)
  | _, _, [] => some []
  | lastUserId, messageIndex, message :: rest =>
    (mapMessage c heap sessionId lastUserId messageIndex message).bind fun events =>
      (mapMessages sessionId (nextUserId c heap lastUserId message) (messageIndex + 1) rest).map
        (events ++ ·)

/-- The events of all messages. -/
def mapPreDurableSdkMessagesToTranscriptEvents (sessionId : Str) (messages : List Value) :
    Option (List Event) :=
  mapMessages c heap sessionId none 0 messages

/-! ## The counting pass -/

/-- The block of an assistant message has an event. -/
def countsAsEvent : Value → Option Bool
  | .object id =>
    let block := (ownProperties heap id).read
    if block (units "type") = .string (units "toolCall") then some true
    else if block (units "type") = .string (units "text") then
      (c.string (orElse (block (units "text")) (.string []))).map (· != [])
    else some false
  | _ => some false

/-- How many blocks have an event. -/
def countBlocks : List Value → Option Nat
  | [] => some 0
  | raw :: rest =>
    (countsAsEvent c heap raw).bind fun counts =>
      (countBlocks rest).map (counts.toNat + ·)

/-- How many events the mapping makes of a message, counted again. -/
def projectedEventCount (value : Value) : Option Nat :=
  (fieldsOf heap value).bind fun message =>
    if hasRole message "user" || hasRole message "toolResult" || hasRole message "compaction" ||
        hasRole message "compactionSummary" then some 1
    else if !hasRole message "assistant" then some 0
    else
      match arrayItems heap (message (units "content")) with
      | none => some 0
      | some content => countBlocks c heap content

/-! ## Entries -/

/-- The message of an entry, if it is a message entry: `entry.type === "message"` and
`"message" in entry`. -/
def messageOf : Value → Option (Option Value)
  | .undefined | .null => none
  | .object id =>
    let entry := ownProperties heap id
    some <|
      if entry.read (units "type") = .string (units "message") then
        (entry.get? (.string (units "message"))).map Property.value
      else none
  | _ => some none

/-- The messages of the entries from one index on, with the indexes of their entries. -/
def messageSources : Nat → List Value → Option (List (Value × Nat))
  | _, [] => some []
  | index, entry :: rest =>
    (messageOf heap entry).bind fun message =>
      (messageSources (index + 1) rest).map
        ((message.map fun found => (found, index)).toList ++ ·)

/-- Cut the mapped events into the parts of the messages, by their counts. -/
def sliceBySource (mapped : List Event) :
    Nat → List (Value × Nat) → Option (List (Nat × List Event))
  | _, [] => some []
  | cursor, source :: rest =>
    (projectedEventCount c heap source.1).bind fun count =>
      (sliceBySource mapped (cursor + count) rest).map
        ((source.2, (mapped.drop cursor).take count) :: ·)

/-- The events of each message entry, under the index of the entry. -/
def indexPreDurableContextEvents (sessionId : Str) (entries : List Value) :
    Option (List (Nat × List Event)) :=
  (messageSources heap 0 entries).bind fun sources =>
    (mapPreDurableSdkMessagesToTranscriptEvents c heap sessionId (sources.map Prod.fst)).bind
      fun mapped => sliceBySource c heap mapped 0 sources

end Messages

end OutpostPi.Session.Fallback
