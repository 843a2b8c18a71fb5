import OutpostPi.Relay.Lifecycle

/-!
# Room metadata on its way from the Pi to a subscriber

The Pi keeps the metadata of its room as one record and changes it by patches. A patch is applied
to the record and sent to the relay, which applies it to its own snapshot; the hello of a
connection carries the whole record. The relay shows a subscriber the mutable part of its
snapshot, the `RoomMetaProjection`.

Both ends are compared through that projection: `RoomMetadata.shown` is what the Pi's record
should look like at a subscriber, and patches act on projections (`RoomMetaProjection.patched`).
The Pi, the relay and the hello all commute with the projection (`shown_assign`,
`projection_apply`, `projection_ofHello`), except that a patch clearing the session id, the
model or the thinking level is not sent as such (`sent`).
-/

set_option autoImplicit false

/-! ## Patches of a projection -/

namespace OutpostPi.Relay.RoomMetaProjection

/-- Write the fields of a patch to a projection. -/
def patched (view : RoomMetaProjection) (patch : RoomMetaPatch) : RoomMetaProjection where
  model := patch.model.getD view.model
  thinking := patch.thinking.getD view.thinking
  sessionId := patch.sessionId.getD view.sessionId
  working := patch.working.getD view.working
  background := patch.background.or view.background
  branch := patch.branch.getD view.branch
  ctxPercent := patch.ctxPercent.getD view.ctxPercent
  ctxMax := patch.ctxMax.getD view.ctxMax

/-- Apply a received `room_meta_updated`: a field that the frame leaves out is kept. -/
def applyTo (snapshot copy : RoomMetaProjection) : RoomMetaProjection where
  model := snapshot.model.or copy.model
  thinking := snapshot.thinking.or copy.thinking
  sessionId := snapshot.sessionId.or copy.sessionId
  working := snapshot.working
  background := snapshot.background.or copy.background
  branch := snapshot.branch
  ctxPercent := snapshot.ctxPercent
  ctxMax := snapshot.ctxMax

/-- The copy of a subscriber that has received nothing. -/
def blank : RoomMetaProjection := ⟨none, none, none, false, none, none, none, none⟩

end OutpostPi.Relay.RoomMetaProjection

namespace OutpostPi.Pi

open OutpostPi.Lib OutpostPi.Relay

/-! ## The Pi's record -/

/-- `_myRoomMeta`, and the copy of it that the relay transport keeps. A field that is null reads
as one that is absent, here as in every reader of the record. -/
structure RoomMetadata where
  name : String
  cwd : String
  sessionId : Option String
  model : Option String
  thinking : Option String
  working : Option Bool
  background : Option Bool
  branch : Option String
  ctxPercent : Option UInt64
  ctxMax : Option UInt64
  deriving DecidableEq

namespace RoomMetadata

/-- Write the fields of a patch, as `_publishRoomMetaPatch` does to `_myRoomMeta` and the spread
in `sendRoomMeta` to the transport's copy. A null drops the field. -/
def assign (room : RoomMetadata) (patch : RoomMetaPatch) : RoomMetadata :=
  { room with
    sessionId := patch.sessionId.getD room.sessionId
    model := patch.model.getD room.model
    thinking := patch.thinking.getD room.thinking
    working := patch.working.or room.working
    background := patch.background.or room.background
    branch := patch.branch.getD room.branch
    ctxPercent := patch.ctxPercent.getD room.ctxPercent
    ctxMax := patch.ctxMax.getD room.ctxMax }

/-- The metadata that a subscriber should see. -/
def shown (room : RoomMetadata) : RoomMetaProjection where
  model := room.model
  thinking := room.thinking
  sessionId := room.sessionId
  working := room.working.getD false
  background := some (room.background.getD false)
  branch := room.branch
  ctxPercent := room.ctxPercent
  ctxMax := room.ctxMax

/-- The relay's snapshot carries every field of the record. -/
def Matches (room : RoomMetadata) (snapshot : RoomMeta) : Prop :=
  snapshot.name = some room.name ∧ snapshot.cwd = some room.cwd ∧
    snapshot.projection = room.shown

instance (room : RoomMetadata) (snapshot : RoomMeta) : Decidable (room.Matches snapshot) :=
  inferInstanceAs (Decidable (_ ∧ _ ∧ _))

end RoomMetadata

/-- The patch that `_publishRoomMetaPatch` hands to the transport. The session id, the model and
the thinking level are left out when they are null. -/
def sent (patch : RoomMetaPatch) : RoomMetaPatch :=
  { patch with
    sessionId := patch.sessionId.filter Option.isSome
    model := patch.model.filter Option.isSome
    thinking := patch.thinking.filter Option.isSome }

/-- The snapshot that the relay builds from a hello. -/
def ofHello (roomId : RoomId) (room : RoomMetadata) (nowMs : Int) : RoomMeta where
  roomId := roomId
  name := some room.name
  cwd := some room.cwd
  sessionId := room.sessionId
  model := room.model
  thinking := room.thinking
  working := room.working.getD false
  background := some (room.background.getD false)
  branch := room.branch
  ctxPercent := room.ctxPercent
  ctxMax := room.ctxMax
  startedAt := nowMs

/-! ## The telemetry sampler -/

/-- The values that `SessionTelemetryPublisher` has published; the outer option tells a value
not yet sampled from a null. -/
structure SessionTelemetry where
  branch : Option (Option String)
  ctxPercent : Option (Option UInt64)
  ctxMax : Option (Option UInt64)
  deriving DecidableEq

namespace SessionTelemetry

/-- Nothing is sampled, as after `reset`. -/
def unsampled : SessionTelemetry := ⟨none, none, none⟩

/-- `patchForHello`. -/
def patchForHello (published : SessionTelemetry) : RoomMetaPatch where
  model := none
  thinking := none
  sessionId := none
  working := none
  background := none
  branch := published.branch
  ctxPercent := published.ctxPercent
  ctxMax := published.ctxMax

/-- The part of a sample that differs from what was published. -/
def changed (published candidate : SessionTelemetry) : SessionTelemetry where
  branch := if candidate.branch = published.branch then none else candidate.branch
  ctxPercent := if candidate.ctxPercent = published.ctxPercent then none else candidate.ctxPercent
  ctxMax := if candidate.ctxMax = published.ctxMax then none else candidate.ctxMax

/-- The values known after a sample. -/
def noted (published candidate : SessionTelemetry) : SessionTelemetry where
  branch := candidate.branch.or published.branch
  ctxPercent := candidate.ctxPercent.or published.ctxPercent
  ctxMax := candidate.ctxMax.or published.ctxMax

end SessionTelemetry

/-- A patch of the working flag alone. -/
def workingPatch (working : Bool) : RoomMetaPatch :=
  ⟨none, none, none, some working, none, none, none, none⟩

/-- A patch of the background flag alone. -/
def backgroundPatch (active : Bool) : RoomMetaPatch :=
  ⟨none, none, none, none, some active, none, none, none⟩

/-- What `onConnected` publishes again. The telemetry is left out when nothing is known. -/
def republished (working background : Bool) (published : SessionTelemetry) :
    List RoomMetaPatch :=
  [workingPatch working, backgroundPatch background] ++
    if published.patchForHello.isEmpty then [] else [published.patchForHello]

/-! ## The subscriber -/

/-- What a subscriber makes of one frame about the room. -/
def receive (copy : RoomMetaProjection) : ServerFrame → RoomMetaProjection
  | .roomAnnounced _ room => room.projection
  | .roomMetaUpdated _ _ snapshot => snapshot.applyTo copy
  | _ => copy

/-! ## The fields that a null should clear -/

/-- The nullable fields that are left out of an update when they are absent. -/
inductive Clearable
  | model
  | thinking
  | sessionId
  deriving DecidableEq

/-- The value of such a field in a projection. -/
def Clearable.ofView (field : Clearable) (view : RoomMetaProjection) : Option String :=
  match field with
  | .model => view.model
  | .thinking => view.thinking
  | .sessionId => view.sessionId

/-- The value of such a field in a patch, absent when the patch does not touch the field. -/
def Clearable.ofPatch (field : Clearable) (patch : RoomMetaPatch) : Option (Option String) :=
  match field with
  | .model => patch.model
  | .thinking => patch.thinking
  | .sessionId => patch.sessionId

/-- A patch that nulls none of the fields which a record has set. -/
def ClearsNothing (room : RoomMetadata) (patch : RoomMetaPatch) : Prop :=
  (patch.model = some none → room.model = none) ∧
    (patch.thinking = some none → room.thinking = none) ∧
    (patch.sessionId = some none → room.sessionId = none)

instance (room : RoomMetadata) (patch : RoomMetaPatch) : Decidable (ClearsNothing room patch) :=
  inferInstanceAs (Decidable (_ ∧ _ ∧ _))

/-- Two projections differ at most in fields that `onConnected` publishes again: the two flags
and the telemetry that the sampler knows. -/
def DifferInRepublished (published : SessionTelemetry) (carried current : RoomMetaProjection) :
    Prop :=
  carried.model = current.model ∧ carried.thinking = current.thinking ∧
    carried.sessionId = current.sessionId ∧
    (published.branch = none → carried.branch = current.branch) ∧
    (published.ctxPercent = none → carried.ctxPercent = current.ctxPercent) ∧
    (published.ctxMax = none → carried.ctxMax = current.ctxMax)

instance (published : SessionTelemetry) (carried current : RoomMetaProjection) :
    Decidable (DifferInRepublished published carried current) :=
  inferInstanceAs (Decidable (_ ∧ _ ∧ _ ∧ _ ∧ _ ∧ _))

/-! ## The hops commute with the projection -/

section Hops

variable {room : RoomMetadata} {snapshot : RoomMeta} {view copy : RoomMetaProjection}
  {patch : RoomMetaPatch} {field : Clearable}

theorem projection_apply : (snapshot.apply patch).projection = snapshot.projection.patched patch :=
  rfl

theorem projection_ofHello {roomId : RoomId} {nowMs : Int} :
    (ofHello roomId room nowMs).projection = room.shown :=
  rfl

theorem shown_assign : (room.assign patch).shown = room.shown.patched patch := by
  have working : ((patch.working.or room.working).getD false) =
      patch.working.getD (room.working.getD false) := by
    cases patch.working <;> rfl
  have background : some ((patch.background.or room.background).getD false) =
      patch.background.or (some (room.background.getD false)) := by
    cases patch.background <;> rfl
  simp only [RoomMetadata.shown, RoomMetadata.assign, RoomMetaProjection.patched, working,
    background]

@[simp] theorem ofView_patched :
    field.ofView (view.patched patch) = (field.ofPatch patch).getD (field.ofView view) := by
  cases field <;> rfl

/-- No sent patch nulls one of these fields. -/
theorem ofPatch_sent : field.ofPatch (sent patch) = (field.ofPatch patch).filter Option.isSome := by
  cases field <;> rfl

theorem ofPatch_sent_ne : field.ofPatch (sent patch) ≠ some none := by
  rw [ofPatch_sent]
  intro nulled
  simpa using Option.mem_filter_iff.mp nulled

private theorem getD_filter {old : Option String} {written : Option (Option String)}
    (kept : written = some none → old = none) :
    (written.filter Option.isSome).getD old = written.getD old := by
  match written with
  | none => rfl
  | some none => exact kept rfl
  | some (some value) => rfl

private theorem or_eq_left {α : Type} {new old : Option α} (absent : new = none → old = none) :
    new.or old = new := by
  cases new with
  | none => exact absent rfl
  | some value => rfl

private theorem getD_congr {α : Type} {new : Option α} {old old' : α}
    (same : new = none → old = old') : new.getD old = new.getD old' := by
  cases new with
  | none => exact same rfl
  | some value => rfl

/-- Leaving the nulls out makes no difference for a patch that clears nothing. -/
theorem assign_sent (clears : ClearsNothing room patch) :
    room.assign (sent patch) = room.assign patch := by
  obtain ⟨model, thinking, sessionId⟩ := clears
  simp only [RoomMetadata.assign, sent, getD_filter model, getD_filter thinking,
    getD_filter sessionId]

/-- An update replaces the copy, except where it leaves a field out that the copy still has. -/
theorem applyTo_eq (shows : view.background.isSome = true)
    (lacks : ∀ field : Clearable, field.ofView view = none → field.ofView copy = none) :
    view.applyTo copy = view := by
  have background : view.background.or copy.background = view.background := by
    refine or_eq_left fun absent => ?_
    rw [absent] at shows
    exact absurd shows (by decide)
  have model : view.model.or copy.model = view.model := or_eq_left (lacks .model)
  have thinking : view.thinking.or copy.thinking = view.thinking := or_eq_left (lacks .thinking)
  have sessionId : view.sessionId.or copy.sessionId = view.sessionId :=
    or_eq_left (lacks .sessionId)
  simp only [RoomMetaProjection.applyTo, model, thinking, sessionId, background]

/-- What is published again brings a projection to the current one. -/
theorem foldl_republished {published : SessionTelemetry} {carried current : RoomMetaProjection}
    (differ : DifferInRepublished published carried current) (working background : Bool) :
    (republished working background published).foldl RoomMetaProjection.patched carried =
      (republished working background published).foldl RoomMetaProjection.patched current := by
  obtain ⟨model, thinking, sessionId, branch, ctxPercent, ctxMax⟩ := differ
  rw [republished]
  split
  · next empty =>
    -- with nothing sampled the telemetry of the two agrees already
    simp only [RoomMetaPatch.isEmpty, SessionTelemetry.patchForHello, Bool.and_eq_true,
      Option.isNone_iff_eq_none] at empty
    obtain ⟨⟨⟨-, noBranch⟩, noPercent⟩, noMax⟩ := empty
    simp [RoomMetaProjection.patched, workingPatch, backgroundPatch, model, thinking, sessionId,
      branch noBranch, ctxPercent noPercent, ctxMax noMax]
  · simp [RoomMetaProjection.patched, workingPatch, backgroundPatch,
      SessionTelemetry.patchForHello, model, thinking, sessionId, getD_congr branch,
      getD_congr ctxPercent, getD_congr ctxMax]

end Hops

end OutpostPi.Pi
