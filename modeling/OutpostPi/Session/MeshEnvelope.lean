import OutpostPi.Lib.Json
import OutpostPi.Session.MeshAddress

/-!
# Envelopes of the mesh

An envelope has the fields `from`, `to`, `id`, `re` and `body`. Its recipients are one name, a
list of names, or all peers in the folder of the sender.
-/

set_option autoImplicit false

namespace OutpostPi.Session

open OutpostPi.Lib

/-- The field `to`. -/
inductive Recipients
  | one (name : String)
  | many (names : List String)
  deriving DecidableEq

/-- A message between peers. -/
structure Envelope where
  /-- The field `from`. -/
  sender : String
  /-- The field `to`. -/
  recipients : Recipients
  id : String
  re : Option String
  body : Json

/-! ## Parsing -/

/-- A digit of a UUID. -/
def isHexDigit (c : Char) : Bool :=
  c.isDigit || ('a' ≤ c && c ≤ 'f') || ('A' ≤ c && c ≤ 'F')

/-- The expression `UUID_RE`: 32 digits with a hyphen after the 8th, 12th, 16th and 20th. -/
def isUuid (text : String) : Bool :=
  text.toList.length = 36 &&
    text.toList.zipIdx.all fun entry =>
      if entry.2 ∈ [8, 13, 18, 23] then entry.1 = '-' else isHexDigit entry.1

/-- A name that is not empty. -/
def parseName : Json → Option String
  | .string name => if name = "" then none else some name
  | _ => none

/-- One recipient, or an array of them that is not empty. -/
def parseRecipients : Json → Option Recipients
  | .string name => (parseName (.string name)).map .one
  | .array items => if items.isEmpty then none else (items.mapM parseName).map .many
  | _ => none

/-- The id of a message. -/
def parseId : Json → Option String
  | .string id => if isUuid id then some id else none
  | _ => none

/-- The message that is answered, if it is one. -/
def parseRe : Json → Option (Option String)
  | .null => some none
  | json => (parseId json).map some

/-- Parse and validate one envelope. -/
def parse (raw : Json) : Option Envelope := do
  let sender ← (raw.field "from").bind parseName
  let recipients ← (raw.field "to").bind parseRecipients
  let id ← (raw.field "id").bind parseId
  let re ← (raw.field "re").bind parseRe
  let body ← raw.field "body"
  return { sender, recipients, id, re, body }

/-! ## Recipients -/

/-- How often the recipients name an address. -/
def Recipients.mentions (recipients : Recipients) (address : String) : Nat :=
  match recipients with
  | .one name => if name = broadcastName ∨ name = address then 1 else 0
  | .many names => names.count address

end OutpostPi.Session
