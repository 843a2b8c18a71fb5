import OutpostPi.Lib.KeepFirst
import OutpostPi.Lib.Machine

/-!
# The wipe of an Owner transition

`LocalBoxes` keeps the transcripts of the app in encrypted Hive boxes. When the Owner key changes,
`wipeTranscriptsForOwnerTransition` closes a gate in memory, stores a flag, waits for the opens that
are under way, collects the transcript boxes from the session index and from the directory, empties
the index and the outbox, deletes the boxes and only then removes the flag. An error leaves the gate
closed, and a crash leaves the flag to the next initialisation.

Each Hive operation is one step, and so is every stretch of code between two of them. A fault ends
what was under way before or after the effect of its operation, and a crash leaves the disk alone.
-/

set_option autoImplicit false

namespace OutpostPi.App.OwnerWipe

open OutpostPi.Lib

/-! ## Names of boxes -/

/-- A name by its characters. -/
abbrev Name := List Char

/-- A session of a room of a Pi. -/
structure TranscriptSessionKey where
  peerId : String
  roomId : String
  sessionId : String
  deriving DecidableEq

/-- The names of the event boxes begin with this. -/
def eventsPrefix : Name := "transcript_events_v3_".toList

/-- The names of the message boxes begin with this. -/
def messagesPrefix : Name := "msgs_v3_".toList

/-- The boxes that `_openEncrypted` is called for. -/
inductive TranscriptBox
  | events (key : TranscriptSessionKey)
  | messages (ref : TranscriptSessionKey)

/-- The name of a box, by the digest of its key. -/
def TranscriptBox.name (digest : TranscriptSessionKey → Name) : TranscriptBox → Name
  | .events key => eventsPrefix ++ digest key
  | .messages ref => messagesPrefix ++ digest ref

/-- The boxes that all sessions share. -/
inductive CommonBox
  | index
  | outbox
  | runtime
  deriving DecidableEq

/-- The name of a common box. -/
def CommonBox.name : CommonBox → Name
  | .index => "sessions_index_v3".toList
  | .outbox => "owner_delivery_outbox_v1".toList
  | .runtime => "runtime".toList

/-- The order in which the common boxes are opened, and in which they are emptied. -/
def CommonBox.next : CommonBox → Option CommonBox
  | .index => some .outbox
  | .outbox => some .runtime
  | .runtime => none

/-- The name of the box with the verifier of the key. -/
def securityMeta : Name := "transcript_security_meta".toList

/-- The name starts with one of the prefixes that the directory scan looks for. -/
def isTranscriptName (name : Name) : Bool :=
  eventsPrefix.isPrefixOf name || messagesPrefix.isPrefixOf name

/-- The suffix of the file of a box. -/
def hiveSuffix : Name := ".hive".toList

/-- The file in which Hive keeps a box. -/
def boxFile (name : Name) : Name := name ++ hiveSuffix

/-- What the directory scan makes of the name of a file. -/
def scannedName (fileName : Name) : Option Name :=
  if hiveSuffix.isSuffixOf fileName then
    let name := fileName.take (fileName.length - hiveSuffix.length)
    if isTranscriptName name then some name else none
  else none

/-! ## State -/

/-- How far `_runOwnerTransitionWipe` is: the operation that comes next, with the transcript boxes
that are still to be deleted. -/
inductive WipeStage
  | openMetadata
  | latch
  | drain
  | openCommon (box : CommonBox)
  | scan
  | clear (box : CommonBox) (names : List Name)
  | close (box : CommonBox) (names : List Name)
  | closeBox (name : Name) (rest : List Name)
  | deleteBox (name : Name) (rest : List Name)
  | reopen (box : CommonBox)
  | clearRuntime
  | unlatch
  deriving DecidableEq

/-- How far `_initProduction` is. -/
inductive InitStage
  | openMetadata
  | loadKey
  | openCommon (box : CommonBox)
  | clearRuntime
  | awaitWipe
  | migrate
  | provision
  deriving DecidableEq

/-- A call of `_openEncrypted` that has passed the gate, before or after Hive has opened the box. -/
structure InFlightOpen where
  name : Name
  opened : Bool
  deriving DecidableEq

/-- The storage: what is on disk, what the process holds, and the boxes that calls of
`_openEncrypted` have returned. -/
structure LocalBoxes where
  files : List Name
  /-- `owner_transition_wipe_pending` in the metadata. -/
  wipePending : Bool
  migrated : Bool
  /-- The rows of the session index, a row that is not understood being `none`. -/
  index : List (Option TranscriptSessionKey)
  /-- The number of deliveries in the outbox. -/
  outbox : Nat
  initialized : Bool := false
  initialization : Option InitStage := none
  /-- `_cipher` is set. -/
  keyed : Bool := false
  gateClosed : Bool := false
  opens : List InFlightOpen := []
  wipe : Option WipeStage := none
  openBoxes : List Name := []
  served : List Name := []

namespace LocalBoxes

/-! ## Hive operations -/

/-- `Hive.openBox`: the file is created if there is none. -/
def openBox (s : LocalBoxes) (name : Name) : LocalBoxes :=
  { s with
    files := if boxFile name ∈ s.files then s.files else boxFile name :: s.files
    openBoxes := if name ∈ s.openBoxes then s.openBoxes else name :: s.openBoxes }

/-- `Box.close`. -/
def closeBox (s : LocalBoxes) (name : Name) : LocalBoxes :=
  { s with openBoxes := s.openBoxes.filter (· != name) }

/-- `Hive.deleteBoxFromDisk`. -/
def deleteBox (s : LocalBoxes) (name : Name) : LocalBoxes :=
  { s with
    files := s.files.filter (· != boxFile name)
    openBoxes := s.openBoxes.filter (· != name) }

/-- `Box.clear` of a common box. What the runtime box holds is nothing to the wipe. -/
def clearBox (s : LocalBoxes) : CommonBox → LocalBoxes
  | .index => { s with index := [] }
  | .outbox => { s with outbox := 0 }
  | .runtime => s

/-! ## The wipe -/

/-- The boxes that an understood row of the index names. -/
def indexedNames (digest : TranscriptSessionKey → Name) (s : LocalBoxes) : List Name :=
  (s.index.filterMap id).flatMap fun key =>
    [TranscriptBox.name digest (.events key), TranscriptBox.name digest (.messages key)]

/-- The set `transcriptBoxes`: from the index, and then from the directory. -/
def transcriptBoxes (digest : TranscriptSessionKey → Name) (s : LocalBoxes) : List Name :=
  keepFirst id [] (s.indexedNames digest ++ s.files.filterMap scannedName)

/-- The effect of the operation that comes next. -/
def wipeEffect (s : LocalBoxes) : WipeStage → LocalBoxes
  | .openMetadata => s.openBox securityMeta
  | .latch => { s with wipePending := true }
  | .drain | .scan => s
  | .openCommon box | .reopen box => s.openBox box.name
  | .clear box _ => s.clearBox box
  | .close box _ => s.closeBox box.name
  | .closeBox name _ => s.closeBox name
  | .deleteBox name _ => s.deleteBox name
  | .clearRuntime => s.clearBox .runtime
  | .unlatch => { s with wipePending := false }

/-- The loop over the boxes, and what follows it. -/
def nextDeletion : List Name → WipeStage
  | [] => .reopen .index
  | name :: rest => .closeBox name rest

/-- The operation after the next one, none when the flag has been removed. -/
def afterStage (digest : TranscriptSessionKey → Name) (s : LocalBoxes) :
    WipeStage → Option WipeStage
  | .openMetadata => some .latch
  | .latch => some .drain
  | .drain => some (.openCommon .index)
  | .openCommon box =>
    match box.next with
    | some other => some (.openCommon other)
    | none => some .scan
  | .scan => some (.clear .index (s.transcriptBoxes digest))
  | .clear box names => some (.close box names)
  | .close box names =>
    match box.next with
    | some other => some (.clear other names)
    | none => some (nextDeletion names)
  | .closeBox name rest => some (.deleteBox name rest)
  | .deleteBox _ rest => some (nextDeletion rest)
  | .reopen box =>
    match box.next with
    | some other => some (.reopen other)
    | none => some .clearRuntime
  | .clearRuntime => some .unlatch
  | .unlatch => none

/-- `wipeTranscriptsForOwnerTransition`: one wipe runs at a time, and the gate is closed before its
first operation. -/
def startWipe (s : LocalBoxes) : LocalBoxes :=
  match s.wipe with
  | some _ => s
  | none =>
    { s with
      gateClosed := true
      wipe := some (if securityMeta ∈ s.openBoxes then .latch else .openMetadata) }

/-- The wipe is through: the gate opens, and an initialisation that waited goes on. -/
def endWipe (s : LocalBoxes) : LocalBoxes :=
  { s with
    wipe := none
    gateClosed := false
    initialization :=
      if s.initialization = some .awaitWipe then some .migrate else s.initialization }

/-- The wipe has thrown, and so does an initialisation that waited for it. -/
def failWipe (s : LocalBoxes) : LocalBoxes :=
  { s with
    wipe := none
    initialization := if s.initialization = some .awaitWipe then none else s.initialization }

/-- The wipe after its next operation. -/
def proceed (digest : TranscriptSessionKey → Name) (s : LocalBoxes) (stage : WipeStage) :
    LocalBoxes :=
  match s.afterStage digest stage with
  | some next => { s.wipeEffect stage with wipe := some next }
  | none => (s.wipeEffect stage).endWipe

/-- The next operation of the wipe. The drain ends when no open is in flight. -/
def advanceWipe (digest : TranscriptSessionKey → Name) (s : LocalBoxes) (stage : WipeStage) :
    Option LocalBoxes :=
  if stage = .drain ∧ s.opens ≠ [] then none else some (s.proceed digest stage)

/-! ## Initialisation -/

/-- `_convergePendingOwnerTransitionWipe`. -/
def convergePendingWipe (s : LocalBoxes) : LocalBoxes :=
  let metadata := s.openBox securityMeta
  if metadata.gateClosed || metadata.wipePending then metadata.startWipe else metadata

/-- `init`. -/
def startInit (s : LocalBoxes) : LocalBoxes :=
  if s.initialized then s.convergePendingWipe
  else
    match s.initialization with
    | some _ => s
    | none => { s with initialization := some .openMetadata }

/-- The next operation of the initialisation. Between the key and `_openCommonOrConvergeWipe` nothing
else runs, so that a pending wipe closes the gate as soon as there is a key. -/
def advanceInit (s : LocalBoxes) : InitStage → Option LocalBoxes
  | .openMetadata => some { s.openBox securityMeta with initialization := some .loadKey }
  | .loadKey =>
    let held := { s with keyed := true }
    if held.gateClosed || held.wipePending then
      some { held.startWipe with initialization := some .awaitWipe }
    else some { held with initialization := some (.openCommon .index) }
  | .openCommon box =>
    some
      { s.openBox box.name with
        initialization :=
          match box.next with
          | some other => some (.openCommon other)
          | none => some .clearRuntime }
  | .clearRuntime => some { s.clearBox .runtime with initialization := some .migrate }
  | .awaitWipe => none
  | .migrate => some { s with migrated := true, initialization := some .provision }
  | .provision => some { s with initialized := true, initialization := none }

/-- What an operation of the initialisation leaves when it throws after its effect. -/
def initEffect (s : LocalBoxes) : InitStage → LocalBoxes
  | .openMetadata => s.openBox securityMeta
  | .openCommon box => s.openBox box.name
  | _ => s

/-! ## Opens of callers -/

/-- The start of `_openEncrypted`, which throws behind a closed gate. -/
def beginOpen (s : LocalBoxes) (name : Name) : LocalBoxes :=
  if s.gateClosed then s else { s with opens := ⟨name, false⟩ :: s.opens }

/-- The end of `_openEncrypted`: the gate is looked at again. -/
def endOpen (s : LocalBoxes) (i : Nat) (name : Name) : LocalBoxes :=
  { s with
    opens := s.opens.eraseIdx i
    served := if s.gateClosed then s.served else name :: s.served }

/-- A crash leaves what is on disk, and what callers have got stays known. -/
def crash (s : LocalBoxes) : LocalBoxes :=
  { files := s.files
    wipePending := s.wipePending
    migrated := s.migrated
    index := s.index
    outbox := s.outbox
    served := s.served }

end LocalBoxes

/-! ## Runs -/

/-- What the app and the file system do. -/
inductive Action
  | crash
  /-- `init` is called, at a start of the app or for a retry. -/
  | init
  /-- The router calls `convergePendingOwnerTransitionWipe` for a retry. -/
  | retry
  /-- The router calls `wipeTranscriptsForOwnerTransition`. -/
  | wipe
  | advanceInit
  | failInit (effected : Bool)
  | advanceWipe
  | failWipe (effected : Bool)
  /-- The migration writes a transcript box or a row of the index. -/
  | migrateBox (box : TranscriptBox)
  | migrateRow (row : Option TranscriptSessionKey)
  | openBegins (box : TranscriptBox)
  | hiveOpens (i : Nat)
  | hiveFails (i : Nat) (effected : Bool)
  | openEnds (i : Nat)
  /-- A caller writes to the index or to the outbox. -/
  | writeRow (row : Option TranscriptSessionKey)
  | writeDelivery

/-- One step. The router exists once the storage has been initialised, and callers write to the
common boxes while they are open and no wipe is on. -/
def step (digest : TranscriptSessionKey → Name) (s : LocalBoxes) : Action → Option LocalBoxes
  | .crash => some s.crash
  | .init => some s.startInit
  | .retry => some (if s.initialized then s.convergePendingWipe else s)
  | .wipe => if s.initialized then some s.startWipe else none
  | .advanceInit => s.initialization.bind s.advanceInit
  | .failInit effected =>
    match s.initialization with
    | some .awaitWipe | none => none
    | some stage => some { (if effected then s.initEffect stage else s) with initialization := none }
  | .advanceWipe => s.wipe.bind (s.advanceWipe digest)
  | .failWipe effected =>
    s.wipe.map fun stage => (if effected then s.wipeEffect stage else s).failWipe
  | .migrateBox box =>
    if s.initialization = some .migrate ∧ s.migrated = false then some (s.openBox (box.name digest))
    else none
  | .migrateRow row =>
    if s.initialization = some .migrate ∧ s.migrated = false then
      some { s with index := row :: s.index }
    else none
  | .openBegins box => some (s.beginOpen (box.name digest))
  | .hiveOpens i =>
    match s.opens[i]? with
    | some ⟨name, false⟩ =>
      if s.keyed then
        let done := s.openBox name
        some { done with opens := s.opens.set i ⟨name, true⟩ }
      else none
    | _ => none
  | .hiveFails i effected =>
    match s.opens[i]? with
    | some ⟨name, false⟩ =>
      some { (if effected && s.keyed then s.openBox name else s) with opens := s.opens.eraseIdx i }
    | _ => none
  | .openEnds i =>
    match s.opens[i]? with
    | some ⟨name, true⟩ => some (s.endOpen i name)
    | _ => none
  | .writeRow row =>
    if s.gateClosed = false ∧ CommonBox.index.name ∈ s.openBoxes then
      some { s with index := row :: s.index }
    else none
  | .writeDelivery =>
    if s.gateClosed = false ∧ CommonBox.outbox.name ∈ s.openBoxes then
      some { s with outbox := s.outbox + 1 }
    else none

/-- A run begins with any disk and without a process. -/
def machine (digest : TranscriptSessionKey → Name) : Machine LocalBoxes Action where
  Init s := s = s.crash
  step := step digest

end OutpostPi.App.OwnerWipe
