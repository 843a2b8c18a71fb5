import OutpostPi.Lib.Json
import Mathlib.Algebra.Ring.Nat

/-!
# Transcript events

A transcript event is one canonical fact of a session. It is written to the session file of the
SDK as a custom entry, and `decodeDurableTranscriptEntry` is the validator at that boundary:
entries of other extensions, of later versions and with a payload that is not a canonical event
are told apart and never decoded.
-/

set_option autoImplicit false

namespace OutpostPi.Session

open OutpostPi.Lib

/-! ## Events -/

/-- A number of a JSON text, `mantissa · 10⁻ᵉˣᵖᵒⁿᵉⁿᵗ`. -/
structure JsonNumber where
  mantissa : Int
  exponent : Nat
  deriving DecidableEq

/-- An attached image. `JSON.stringify` keeps the order of its two keys, and so two images that
differ in it are different here: `mimeFirst` says which of the two comes first. -/
structure WireImage where
  data : String
  mime : String
  mimeFirst : Bool
  deriving DecidableEq

/-- The token counts of a reply. -/
structure Usage where
  inputTokens : JsonNumber
  outputTokens : JsonNumber
  deriving DecidableEq

/-- How a message reached a running turn. -/
inductive StreamingBehavior
  | steer
  deriving DecidableEq

/-- What an event of the transcript says. -/
inductive TranscriptFact
  | userSubmitted (clientMessageId text : String) (images : Option (List WireImage))
  | userConfirmed (clientMessageId text : String) (images : Option (List WireImage))
      (streamingBehavior : Option StreamingBehavior)
  | userFailed (clientMessageId code message : String)
  | assistantDelta (replyTo delta : String)
  | assistantCommitted (messageId replyTo text : String) (usage : Option Usage)
  | assistantDone (replyTo : String) (usage : Option Usage)
  | providerError (replyTo : Option String) (code message : String)
  | toolRequested (toolCallId tool : String) (args : Json)
  | toolFinished (toolCallId : String) (result : Option Json) (error : Option String)
  | compactionRecorded (summary : String) (tokensBefore : Option JsonNumber)

/-- An event of the transcript of a session. -/
structure TranscriptEvent where
  eventId : String
  sessionId : String
  ts : Int
  turnId : Option String
  fact : TranscriptFact

/-- The `kind` of an event. -/
def TranscriptFact.kind : TranscriptFact → String
  | .userSubmitted .. => "user_submitted"
  | .userConfirmed .. => "user_confirmed"
  | .userFailed .. => "user_failed"
  | .assistantDelta .. => "assistant_delta"
  | .assistantCommitted .. => "assistant_committed"
  | .assistantDone .. => "assistant_done"
  | .providerError .. => "provider_error"
  | .toolRequested .. => "tool_requested"
  | .toolFinished .. => "tool_finished"
  | .compactionRecorded .. => "compaction_recorded"

/-- The client message id, text and images of a user message. -/
def TranscriptFact.userMessage? :
    TranscriptFact → Option (String × String × Option (List WireImage))
  | .userSubmitted clientMessageId text images => some (clientMessageId, text, images)
  | .userConfirmed clientMessageId text images _ => some (clientMessageId, text, images)
  | _ => none

/-- The identity of an event. The code puts the pair into a JSON text. -/
def TranscriptEvent.identity (event : TranscriptEvent) : String × String :=
  (event.sessionId, event.eventId)

/-! ## The durable codec -/

/-- The type of the custom entries that hold events. -/
def transcriptEventCustomType : String := "outpost-pi.transcript-event.v1"

/-- The types of custom entries that hold events of other versions begin with this. -/
def transcriptEventCustomTypePrefix : String := "outpost-pi.transcript-event.v"

/-- The keys that every event may have. -/
def commonKeys : List String := ["kind", "eventId", "sessionId", "ts", "turnId"]

/-- The object has no keys but these. -/
def hasExactKeys (fields : List (String × Json)) (allowed : List String) : Bool :=
  fields.all fun entry => allowed.contains entry.1

/-- A string. -/
def parseString : Json → Option String
  | .string text => some text
  | _ => none

/-- A string that is not empty. -/
def parseNonEmptyString : Json → Option String
  | .string text => if text.isEmpty then none else some text
  | _ => none

/-- A safe integer that is not negative. -/
def parseTimestamp : Json → Option Int
  | .number mantissa exponent =>
    let scale : Int := ((10 ^ exponent : Nat) : Int)
    if mantissa % scale = 0 ∧ 0 ≤ mantissa ∧ mantissa / scale ≤ 9007199254740991 then
      some (mantissa / scale)
    else none
  | _ => none

/-- A number that is not negative. -/
def parseNonNegative : Json → Option JsonNumber
  | .number mantissa exponent => if 0 ≤ mantissa then some ⟨mantissa, exponent⟩ else none
  | _ => none

/-- An object. -/
def parseRecord : Json → Option Json
  | .object fields => some (.object fields)
  | _ => none

/-- The only streaming behaviour that there is. -/
def parseSteer : Json → Option StreamingBehavior
  | .string text => if text = "steer" then some .steer else none
  | _ => none

/-- An image with its two keys and no others. -/
def parseImage : Json → Option WireImage
  | .object fields =>
    if hasExactKeys fields ["data", "mime"] then do
      let data ← (Json.object fields).field "data" >>= parseString
      let mime ← (Json.object fields).field "mime" >>= parseString
      some ⟨data, mime, (fields.map Prod.fst).head? = some "mime"⟩
    else none
  | _ => none

/-- An array of images, all of which must be well formed. -/
def parseImages : Json → Option (List WireImage)
  | .array items => items.mapM parseImage
  | _ => none

/-- Token counts with their two keys and no others. -/
def parseUsage : Json → Option Usage
  | .object fields =>
    if hasExactKeys fields ["input_tokens", "output_tokens"] then do
      let inputTokens ← (Json.object fields).field "input_tokens" >>= parseNonNegative
      let outputTokens ← (Json.object fields).field "output_tokens" >>= parseNonNegative
      some ⟨inputTokens, outputTokens⟩
    else none
  | _ => none

section Fields

variable {α : Type} (payload : Json) (name : String) (parse : Json → Option α)

/-- A field that must be there and well formed. -/
def required : Option α := payload.field name >>= parse

/-- An absent field is accepted, a present one has to parse. -/
def optional : Option (Option α) :=
  match payload.field name with
  | none => some none
  | some value => (parse value).map some

end Fields

/-- The branch of `isTranscriptEvent` for each kind. A value of the type `Json` is JSON-safe. -/
def parseFact (payload : Json) (fields : List (String × Json)) (kind : String) :
    Option TranscriptFact :=
  let only (keys : List String) (fact : Option TranscriptFact) : Option TranscriptFact :=
    if hasExactKeys fields (commonKeys ++ keys) then fact else none
  match kind with
  | "user_submitted" => only ["clientMessageId", "text", "images"] do
    let clientMessageId ← required payload "clientMessageId" parseString
    let text ← required payload "text" parseString
    let images ← optional payload "images" parseImages
    some (.userSubmitted clientMessageId text images)
  | "user_confirmed" => only ["clientMessageId", "text", "images", "streamingBehavior"] do
    let clientMessageId ← required payload "clientMessageId" parseString
    let text ← required payload "text" parseString
    let images ← optional payload "images" parseImages
    let streamingBehavior ← optional payload "streamingBehavior" parseSteer
    some (.userConfirmed clientMessageId text images streamingBehavior)
  | "user_failed" => only ["clientMessageId", "code", "message"] do
    let clientMessageId ← required payload "clientMessageId" parseString
    let code ← required payload "code" parseString
    let message ← required payload "message" parseString
    some (.userFailed clientMessageId code message)
  | "assistant_delta" => only ["replyTo", "delta"] do
    let replyTo ← required payload "replyTo" parseString
    let delta ← required payload "delta" parseString
    some (.assistantDelta replyTo delta)
  | "assistant_committed" => only ["messageId", "replyTo", "text", "usage"] do
    let messageId ← required payload "messageId" parseString
    let replyTo ← required payload "replyTo" parseString
    let text ← required payload "text" parseString
    let usage ← optional payload "usage" parseUsage
    some (.assistantCommitted messageId replyTo text usage)
  | "assistant_done" => only ["replyTo", "usage"] do
    let replyTo ← required payload "replyTo" parseString
    let usage ← optional payload "usage" parseUsage
    some (.assistantDone replyTo usage)
  | "provider_error" => only ["replyTo", "code", "message"] do
    let replyTo ← optional payload "replyTo" parseString
    let code ← required payload "code" parseString
    let message ← required payload "message" parseString
    some (.providerError replyTo code message)
  | "tool_requested" => only ["toolCallId", "tool", "args"] do
    let toolCallId ← required payload "toolCallId" parseString
    let tool ← required payload "tool" parseString
    let args ← required payload "args" parseRecord
    some (.toolRequested toolCallId tool args)
  | "tool_finished" => only ["toolCallId", "result", "error"] do
    let toolCallId ← required payload "toolCallId" parseString
    let error ← optional payload "error" parseString
    some (.toolFinished toolCallId (payload.field "result") error)
  | "compaction_recorded" => only ["summary", "tokensBefore"] do
    let summary ← required payload "summary" parseString
    let tokensBefore ← optional payload "tokensBefore" parseNonNegative
    some (.compactionRecorded summary tokensBefore)
  | _ => none

/-- Accept a payload that is a canonical event. -/
def parseTranscriptEvent : Json → Option TranscriptEvent
  | .object fields => do
    let payload := Json.object fields
    let kind ← required payload "kind" parseNonEmptyString
    let eventId ← required payload "eventId" parseNonEmptyString
    let sessionId ← required payload "sessionId" parseNonEmptyString
    let ts ← required payload "ts" parseTimestamp
    let turnId ← optional payload "turnId" parseNonEmptyString
    let fact ← parseFact payload fields kind
    some ⟨eventId, sessionId, ts, turnId, fact⟩
  | _ => none

/-- What a custom entry is to the transcript. -/
inductive DurableTranscriptEventDecode
  | decoded (event : TranscriptEvent)
  | notTranscript
  | unsupportedVersion
  | invalid

/-- Decode a custom entry by its type and payload. -/
def decodeCustomEntry (customType : Option String) (data : Option Json) :
    DurableTranscriptEventDecode :=
  match customType with
  | none => .notTranscript
  | some customType =>
    if customType ≠ transcriptEventCustomType then
      if transcriptEventCustomTypePrefix.toList.isPrefixOf customType.toList then
        .unsupportedVersion
      else .notTranscript
    else
      match data.bind parseTranscriptEvent with
      | some event => .decoded event
      | none => .invalid

end OutpostPi.Session
