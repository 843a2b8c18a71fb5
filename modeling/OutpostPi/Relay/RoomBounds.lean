import OutpostPi.Lib.Json
import OutpostPi.Lib.Machine
import OutpostPi.Relay.OuterFrames
import OutpostPi.Relay.Rooms

/-!
# Bounds on room metadata

A `hello` is accepted only if the texts in its room metadata are within their limits. A
`room_meta_update` writes the session id, the model and the thinking level of a stored room too.
Its patch goes through the generated deserializer, `visitMap`, which refuses unknown, repeated
and mistyped fields and has no limit on a text.

`bounds_hold_iff` says of every run that the limits hold in all of its states exactly when each
update of a stored room keeps them itself.
-/

set_option autoImplicit false

namespace OutpostPi.Relay.RoomBounds

open OutpostPi.Lib

/-! ## Limits -/

/-- The bound of the name in a `hello`. -/
def relayMaxRoomNameBytes : Nat := 256

/-- The bound of the working directory in a `hello`. -/
def relayMaxCwdBytes : Nat := 4096

/-- The bound of a session id. -/
def relayMaxSessionIdBytes : Nat := 512

/-- The bound of a model name. -/
def relayMaxModelBytes : Nat := 256

/-- The bound of a thinking level. -/
def relayMaxThinkingBytes : Nat := 32

/-! ## The hello path -/

/-- The room as a `hello` describes it. -/
structure HelloRoomMeta where
  name : Option String
  cwd : Option String
  model : Option String
  thinking : Option String
  sessionId : Option String
  working : Bool
  background : Bool
  branch : Option String
  ctxPercent : Option UInt64
  ctxMax : Option UInt64

/-- The description of a `hello` that brings none. -/
def HelloRoomMeta.default : HelloRoomMeta :=
  ⟨none, none, none, none, none, false, false, none, none, none⟩

/-- A `hello` frame as it is deserialized. -/
structure ClientHello where
  pubkey : String
  deviceId : String
  roomId : String
  roomMeta : Option HelloRoomMeta

/-- A peer whose `hello` is accepted. -/
structure AuthenticatedPeer where
  peerId : PeerId
  deviceId : DeviceId
  roomMeta : RoomMeta

/-- A field is measured in the octets of its UTF-8 form. -/
def ensureFieldSize (field value : String) (max : Nat) : Except AuthError Unit :=
  if max < value.utf8ByteSize then .error (.fieldTooLarge field value.utf8ByteSize max) else .ok ()

/-- A field that is absent is not too large. -/
def ensureOptionalFieldSize (field : String) (value : Option String) (max : Nat) :
    Except AuthError Unit :=
  match value with
  | none => .ok ()
  | some value => ensureFieldSize field value max

/-- The checks on the texts of the room metadata, in their order. -/
def ensureRoomMeta : Option HelloRoomMeta → Except AuthError Unit
  | none => .ok ()
  | some room => do
    ensureOptionalFieldSize "room_meta.name" room.name relayMaxRoomNameBytes
    ensureOptionalFieldSize "room_meta.cwd" room.cwd relayMaxCwdBytes
    ensureOptionalFieldSize "room_meta.session_id" room.sessionId relayMaxSessionIdBytes
    ensureOptionalFieldSize "room_meta.model" room.model relayMaxModelBytes
    ensureOptionalFieldSize "room_meta.thinking" room.thinking relayMaxThinkingBytes

/-- The checks on a `hello` that come before its key. -/
def ensureHello (hello : ClientHello) : Except AuthError Unit :=
  if hello.deviceId.isEmpty then .error .invalidDeviceId
  else do
    ensureFieldSize "device_id" hello.deviceId relayMaxDeviceIdBytes
    ensureFieldSize "room_id" hello.roomId relayMaxRoomIdBytes
    ensureRoomMeta hello.roomMeta

/-- The metadata that a registration stores. -/
def HelloRoomMeta.toRoomMeta (room : HelloRoomMeta) (roomId : RoomId) (nowMs : Int) :
    RoomMeta where
  roomId := roomId
  name := room.name
  cwd := room.cwd
  sessionId := room.sessionId
  model := room.model
  thinking := room.thinking
  working := room.working
  background := some room.background
  branch := room.branch
  ctxPercent := room.ctxPercent
  ctxMax := room.ctxMax
  startedAt := nowMs

/-- `parse_hello_bootstrap` once the frame is deserialized. Whether 32 bytes are the bytes of a
verifying key is a parameter. -/
def parseHelloBootstrap (isKey : List UInt8 → Bool) (hello : ClientHello) (nowMs : Int) :
    Except AuthError AuthenticatedPeer :=
  match ensureHello hello with
  | .error error => .error error
  | .ok () =>
    let bytes := Base64.decode hello.pubkey
    if Base64.encode bytes ≠ hello.pubkey then .error .base64
    else if bytes.length ≠ 32 ∨ isKey bytes = false then .error .invalidPubkey
    else
      .ok ⟨Base64.encode bytes, hello.deviceId,
        (hello.roomMeta.getD .default).toRoomMeta hello.roomId nowMs⟩

/-! ## The patch path -/

/-- Why a patch cannot be read. -/
inductive PatchError
  | duplicateField (field : String)
  | unknownField (field : String)
  | invalidType
  deriving DecidableEq

/-- A value of type `Option<String>`. -/
def optionString : Json → Except PatchError (Option String)
  | .null => .ok none
  | .string text => .ok (some text)
  | _ => .error .invalidType

/-- A truth value, and nothing that would have to be converted. -/
def boolValue : Json → Except PatchError Bool
  | .bool value => .ok value
  | _ => .error .invalidType

/-- A value of type `Option<u64>`. -/
def optionU64 : Json → Except PatchError (Option UInt64)
  | .null => .ok none
  | .number mantissa exponent =>
    if exponent = 0 ∧ 0 ≤ mantissa ∧ mantissa < 2 ^ 64 then .ok (some (UInt64.ofNat mantissa.toNat))
    else .error .invalidType
  | _ => .error .invalidType

/-- Read a field that the patch does not have yet. -/
def visitField {α : Type} (field : String) (old : Option α) (read : Except PatchError α)
    (write : α → RoomMetaPatch) : Except PatchError RoomMetaPatch :=
  if old.isSome then .error (.duplicateField field) else read.map write

/-- One round of the loop in `visit_map`. -/
def visitEntry (patch : RoomMetaPatch) (key : String) (value : Json) :
    Except PatchError RoomMetaPatch :=
  match key with
  | "model" =>
    visitField "model" patch.model (optionString value) fun new => { patch with model := some new }
  | "thinking" =>
    visitField "thinking" patch.thinking (optionString value) fun new =>
      { patch with thinking := some new }
  | "session_id" =>
    visitField "session_id" patch.sessionId (optionString value) fun new =>
      { patch with sessionId := some new }
  | "working" =>
    visitField "working" patch.working (boolValue value) fun new => { patch with working := some new }
  | "background" =>
    visitField "background" patch.background (boolValue value) fun new =>
      { patch with background := some new }
  | "branch" =>
    visitField "branch" patch.branch (optionString value) fun new => { patch with branch := some new }
  | "ctx_percent" =>
    visitField "ctx_percent" patch.ctxPercent (optionU64 value) fun new =>
      { patch with ctxPercent := some new }
  | "ctx_max" =>
    visitField "ctx_max" patch.ctxMax (optionU64 value) fun new => { patch with ctxMax := some new }
  | other => .error (.unknownField other)

/-- Read the entries of a patch one after another. -/
def visitMap (patch : RoomMetaPatch) : List (String × Json) → Except PatchError RoomMetaPatch
  | [] => .ok patch
  | (key, value) :: entries =>
    match visitEntry patch key value with
    | .error error => .error error
    | .ok patch => visitMap patch entries

/-- The patch that changes nothing. -/
def emptyPatch : RoomMetaPatch := ⟨none, none, none, none, none, none, none, none⟩

/-- A `room_meta_update` frame, with the entries of its `meta` object. They are those of a decoded
`serde_json::Value`, in which equal keys have collapsed already, so that no entry is a duplicate of
an earlier one and `duplicateField` does not occur. -/
structure RoomMetaUpdateFrame where
  roomId : Option RoomId
  fields : List (String × Json)

/-- The room that an update of a connection goes to. -/
def RoomMetaUpdateFrame.targetRoom (frame : RoomMetaUpdateFrame) (authedRoom : RoomId) : RoomId :=
  frame.roomId.getD authedRoom

/-- `room_meta_update` on a frame, which is dropped if it does not parse or if its room is not
stored. -/
def roomMetaUpdate (store : RoomStateStore) (peerId : PeerId) (authedRoom : RoomId)
    (frame : RoomMetaUpdateFrame) : RoomStateStore :=
  match visitMap emptyPatch frame.fields with
  | .error _ => store
  | .ok patch =>
    match store.applyPatch peerId (frame.targetRoom authedRoom) patch with
    | none => store
    | some (store', _) => store'

/-! ## Runs -/

/-- What reaches the room store. -/
inductive Action
  /-- A `hello` registers, if it is accepted. What the connection table reports is arbitrary. -/
  | hello (hello : ClientHello) (nowMs : Int) (insert : ConnectionInsert)
  | roomMetaUpdate (peerId : PeerId) (authedRoom : RoomId) (frame : RoomMetaUpdateFrame)
  /-- A connection goes. -/
  | removed (peerId : PeerId) (roomId : RoomId) (remove : ConnectionRemove) (sinceTs : Int)

variable (isKey : List UInt8 → Bool)

/-- One step of the store. What is not accepted leaves it as it is. -/
def step (store : RoomStateStore) : Action → RoomStateStore
  | .hello hello nowMs insert =>
    match parseHelloBootstrap isKey hello nowMs with
    | .error _ => store
    | .ok peer => (store.onConnectionInserted peer.peerId peer.roomMeta insert).1
  | .roomMetaUpdate peerId authedRoom frame => roomMetaUpdate store peerId authedRoom frame
  | .removed peerId roomId remove sinceTs =>
    (store.onConnectionRemoved peerId roomId remove sinceTs).1

/-- The store from start-up on. -/
def system : Machine RoomStateStore Action where
  Init store := store = .new
  step store action := some (step isKey store action)

/-! ## Bounds -/

/-- The fields that both paths write. -/
inductive BoundedField
  | sessionId
  | model
  | thinking
  deriving DecidableEq

namespace BoundedField

/-- The name of the field in the protocol. -/
def name : BoundedField → String
  | .sessionId => "session_id"
  | .model => "model"
  | .thinking => "thinking"

/-- The bound of the field in a `hello`. -/
def max : BoundedField → Nat
  | .sessionId => relayMaxSessionIdBytes
  | .model => relayMaxModelBytes
  | .thinking => relayMaxThinkingBytes

/-- The field of a room. -/
def ofMeta : BoundedField → RoomMeta → Option String
  | .sessionId, room => room.sessionId
  | .model, room => room.model
  | .thinking, room => room.thinking

/-- The field of a patch: absent, cleared or set. -/
def ofPatch : BoundedField → RoomMetaPatch → Option (Option String)
  | .sessionId, patch => patch.sessionId
  | .model, patch => patch.model
  | .thinking, patch => patch.thinking

end BoundedField

/-- The text in a field is within its limit. -/
def MetaBounded (room : RoomMeta) : Prop :=
  ∀ (field : BoundedField) (text : String), field.ofMeta room = some text →
    text.utf8ByteSize ≤ field.max

/-- Every stored metadata is within the limits. -/
def Bounded (store : RoomStateStore) : Prop :=
  ∀ key room, store.rooms.lookup key = some room → MetaBounded room

/-- The texts of an update are within the limits. -/
def FrameBounded (frame : RoomMetaUpdateFrame) : Prop :=
  ∀ (field : BoundedField) (text : String), (field.name, Json.string text) ∈ frame.fields →
    text.utf8ByteSize ≤ field.max

/-- An update that parses and whose room is stored keeps the limits. -/
def InBounds (store : RoomStateStore) : Action → Prop
  | .roomMetaUpdate peerId authedRoom frame =>
    (visitMap emptyPatch frame.fields).isOk = true →
      store.Holds (peerId, frame.targetRoom authedRoom) → FrameBounded frame
  | _ => True

variable {isKey} {store : RoomStateStore}

/-! ### Hello -/

theorem ensureOptionalFieldSize_ok {field : String} {value : Option String} {max : Nat}
    (passed : ensureOptionalFieldSize field value max = .ok ()) :
    ∀ text, value = some text → text.utf8ByteSize ≤ max := by
  rintro text rfl
  rw [ensureOptionalFieldSize, ensureFieldSize] at passed
  split at passed
  · cases passed
  · next fits => exact Nat.le_of_not_lt fits

private theorem bind_ok {ε α β : Type} {x : Except ε α} {f : α → Except ε β} {b : β}
    (bound : (x >>= f) = .ok b) : ∃ a, x = .ok a ∧ f a = .ok b := by
  cases x with
  | error error => cases bound
  | ok a => exact ⟨a, rfl, bound⟩

/-- Metadata that passes the checks of a `hello` is within the limits. -/
theorem metaBounded_of_ensured {room : HelloRoomMeta} {roomId : RoomId} {nowMs : Int}
    (passed : ensureRoomMeta (some room) = .ok ()) :
    MetaBounded (room.toRoomMeta roomId nowMs) := by
  rw [ensureRoomMeta] at passed
  obtain ⟨-, -, passed⟩ := bind_ok passed
  obtain ⟨-, -, passed⟩ := bind_ok passed
  obtain ⟨_, sessionId, passed⟩ := bind_ok passed
  obtain ⟨_, model, thinking⟩ := bind_ok passed
  intro field text held
  cases field with
  | sessionId => exact ensureOptionalFieldSize_ok sessionId text held
  | model => exact ensureOptionalFieldSize_ok model text held
  | thinking => exact ensureOptionalFieldSize_ok thinking text held

/-- An accepted `hello` registers metadata within the limits. -/
theorem metaBounded_of_hello {hello : ClientHello} {nowMs : Int} {peer : AuthenticatedPeer}
    (accepted : parseHelloBootstrap isKey hello nowMs = .ok peer) : MetaBounded peer.roomMeta := by
  rw [parseHelloBootstrap] at accepted
  split at accepted
  · cases accepted
  · next passed =>
    have bounded : MetaBounded
        ((hello.roomMeta.getD .default).toRoomMeta hello.roomId nowMs) := by
      rw [ensureHello] at passed
      split at passed
      · cases passed
      · obtain ⟨-, -, passed⟩ := bind_ok passed
        obtain ⟨-, -, passed⟩ := bind_ok passed
        cases given : hello.roomMeta with
        | none =>
          -- Without metadata the texts are absent.
          intro field text held
          cases field <;> cases held
        | some room =>
          rw [given] at passed
          exact metaBounded_of_ensured passed
    dsimp only at accepted
    split at accepted
    · cases accepted
    · split at accepted
      · cases accepted
      · cases accepted
        exact bounded

/-! ### Patches -/

variable {patch : RoomMetaPatch}

theorem visitField_ok {α : Type} {field : String} {old : Option α} {read : Except PatchError α}
    {write : α → RoomMetaPatch} (visited : visitField field old read write = .ok patch) :
    old = none ∧ ∃ value, read = .ok value ∧ write value = patch := by
  rw [visitField] at visited
  split at visited
  · cases visited
  · next absent =>
    refine ⟨Option.not_isSome_iff_eq_none.mp absent, ?_⟩
    cases read with
    | error error => cases visited
    | ok value => exact ⟨value, rfl, Except.ok.inj visited⟩

theorem optionString_ok {value : Json} {text : String} :
    optionString value = .ok (some text) ↔ value = .string text := by
  cases value with
  | null => simp [optionString]
  | bool value => simp [optionString]
  | number mantissa exponent => simp [optionString]
  | string content => simp [optionString]
  | array items => simp [optionString]
  | object fields => simp [optionString]

/-- An entry adds its own text to a bounded field, and no other text. -/
theorem visitEntry_ok {patch' : RoomMetaPatch} {key : String} {value : Json}
    (visited : visitEntry patch key value = .ok patch') (field : BoundedField) (text : String) :
    field.ofPatch patch' = some (some text) ↔
      field.ofPatch patch = some (some text) ∨ (key, value) = (field.name, .string text) := by
  unfold visitEntry at visited
  split at visited
  case h_9 => cases visited
  all_goals
    obtain ⟨absent, new, read, rfl⟩ := visitField_ok visited
    cases field <;>
      simp [BoundedField.ofPatch, BoundedField.name, absent, ← optionString_ok, read]

/-- The texts of a parsed patch are those of its entries. -/
theorem visitMap_ok {patch' : RoomMetaPatch} {entries : List (String × Json)}
    (visited : visitMap patch entries = .ok patch') (field : BoundedField) (text : String) :
    field.ofPatch patch' = some (some text) ↔
      field.ofPatch patch = some (some text) ∨ (field.name, .string text) ∈ entries := by
  induction entries generalizing patch with
  | nil =>
    cases visited
    simp
  | cons entry entries ih =>
    obtain ⟨key, value⟩ := entry
    rw [visitMap] at visited
    split at visited
    · cases visited
    · next read =>
      rw [ih visited, visitEntry_ok read, List.mem_cons, or_assoc,
        eq_comm (a := (key, value))]

/-- A patched snapshot is within the limits exactly when the snapshot was and the patch is, where
the patch says nothing about a text that it replaces. -/
theorem metaBounded_apply {room : RoomMeta} (bounded : MetaBounded room) (patch : RoomMetaPatch) :
    MetaBounded (room.apply patch) ↔
      ∀ (field : BoundedField) (text : String), field.ofPatch patch = some (some text) →
        text.utf8ByteSize ≤ field.max := by
  have written : ∀ field : BoundedField,
      field.ofMeta (room.apply patch) = (field.ofPatch patch).getD (field.ofMeta room) := by
    intro field
    cases field <;> rfl
  constructor
  · intro after field text set
    refine after field text ?_
    rw [written, set, Option.getD_some]
  · intro within field text held
    rw [written] at held
    cases set : field.ofPatch patch with
    | none =>
      rw [set] at held
      exact bounded field text held
    | some new =>
      rw [set, Option.getD_some] at held
      exact within field text (by rw [set, held])

/-! ### Steps -/

theorem bounded_insert (bounded : Bounded store) {key : RoomKey} {room : RoomMeta} :
    Bounded ⟨store.rooms.put key room⟩ ↔ MetaBounded room := by
  constructor
  · intro after
    exact after key room (Map.lookup_put ..)
  · intro within other found held
    by_cases same : other = key
    · subst same
      rw [Map.lookup_put, Option.some.injEq] at held
      exact held ▸ within
    · rw [Map.lookup_put_ne same] at held
      exact bounded other found held

theorem bounded_update (bounded : Bounded store) (peerId : PeerId) (authedRoom : RoomId)
    (frame : RoomMetaUpdateFrame) :
    Bounded (roomMetaUpdate store peerId authedRoom frame) ↔
      InBounds store (.roomMetaUpdate peerId authedRoom frame) := by
  rw [roomMetaUpdate, InBounds]
  cases parsed : visitMap emptyPatch frame.fields with
  | error error => exact iff_of_true bounded (by simp [Except.isOk, Except.toBool])
  | ok patch =>
    simp only [RoomStateStore.applyPatch, RoomStateStore.Holds, Map.mem_iff_lookup]
    cases found : store.rooms.lookup (peerId, frame.targetRoom authedRoom) with
    | none => exact iff_of_true bounded (by simp)
    | some room =>
      dsimp only [Option.map_some]
      rw [bounded_insert bounded, metaBounded_apply (bounded _ room found)]
      have texts : ∀ (field : BoundedField) (text : String),
          field.ofPatch patch = some (some text) ↔ (field.name, .string text) ∈ frame.fields := by
        intro field text
        rw [visitMap_ok parsed]
        cases field <;> simp [BoundedField.ofPatch, emptyPatch]
      simp only [texts]
      constructor
      · intro within _ _
        exact within
      · intro within
        exact within rfl ⟨room, rfl⟩

theorem bounded_step (bounded : Bounded store) (action : Action) :
    Bounded (step isKey store action) ↔ InBounds store action := by
  cases action with
  | hello hello nowMs insert =>
    refine iff_of_true ?_ trivial
    rw [step]
    split
    · exact bounded
    · next peer accepted => exact (bounded_insert bounded).mpr (metaBounded_of_hello accepted)
  | roomMetaUpdate peerId authedRoom frame => exact bounded_update bounded peerId authedRoom frame
  | removed peerId roomId remove sinceTs =>
    refine iff_of_true ?_ trivial
    rw [step, RoomStateStore.onConnectionRemoved]
    split
    · intro key room held
      exact bounded key room (Map.lookup_of_erase held)
    · exact bounded

/-- In a run from start-up on, all stored metadata is within the limits in every state exactly
when every update of a stored room is. -/
theorem bounds_hold_iff (isKey : List UInt8 → Bool) (schedule : List Action) :
    (system isKey).Throughout Bounded .new schedule ↔
      (system isKey).Meets InBounds .new schedule := by
  refine Machine.throughout_iff_meets ?_ ?_ ?_
  · intro store action store' bounded taken
    obtain rfl : step isKey store action = store' := Option.some.inj taken
    exact bounded_step bounded action
  · intro store action refused
    cases refused
  · intro key room held
    cases held

/-- A Pi registers, and then an update of its room carries a model of 257 bytes. -/
theorem exists_model_out_of_bounds :
    ∃ (isKey : List UInt8 → Bool) (schedule : List Action),
      ¬ (system isKey).Throughout Bounded .new schedule := by
  let model := String.ofList (List.replicate 257 'm')
  let hello : ClientHello := ⟨"AAAAAAAAAAAAAAAAAAAAAAAAAAAAAAAAAAAAAAAAAAA=", "laptop", "main", none⟩
  let schedule : List Action :=
    [.hello hello 0 ⟨"", 0, true, true, false, []⟩,
      .roomMetaUpdate "AAAAAAAAAAAAAAAAAAAAAAAAAAAAAAAAAAAAAAAAAAA=" "main"
        ⟨none, [("model", .string model)]⟩]
  refine ⟨fun _ => true, schedule, ?_⟩
  intro throughout
  obtain ⟨-, -, bounded⟩ := throughout
  have stored : ((step (fun _ => true) (step (fun _ => true) .new
      (.hello hello 0 ⟨"", 0, true, true, false, []⟩))
      (.roomMetaUpdate "AAAAAAAAAAAAAAAAAAAAAAAAAAAAAAAAAAAAAAAAAAA=" "main"
        ⟨none, [("model", .string model)]⟩)).rooms.lookup
      ("AAAAAAAAAAAAAAAAAAAAAAAAAAAAAAAAAAAAAAAAAAA=", "main")).map RoomMeta.model =
        some (some model) := by
    decide +kernel
  obtain ⟨room, held, same⟩ := Option.map_eq_some_iff.mp stored
  have within := bounded _ room held .model model same
  exact absurd within (by decide +kernel)

end OutpostPi.Relay.RoomBounds
