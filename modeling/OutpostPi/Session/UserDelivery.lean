import OutpostPi.Session.TurnInvariant

/-!
# The turn of a user message and its rollback

A user message seeds a turn before it is handed to the agent, and the handoff is asynchronous:
turn events are reduced before its failure is known. The failure handling then restores the
snapshot that was captured at the seed and reports a delivery error.

`rollbackAttempt_undoes_only_seed_iff` says when this undoes nothing but the seed.
-/

set_option autoImplicit false

namespace OutpostPi.Session

open OutpostPi.Lib

/-- The turn that the session projection owns, and the working flags that it published. -/
structure SdkSessionProjection where
  turn : TurnSnapshot
  publishedWorking : List Bool

/-- What the seed of a user message remembers for its rollback. -/
structure SeededUserTurn where
  seeded : Bool
  previous : TurnSnapshot

namespace SdkSessionProjection

/-- Publish the working flag when it changed. -/
def publishTurnProjection (projection : SdkSessionProjection) (before after : Bool) :
    SdkSessionProjection :=
  if before = after then projection
  else { projection with publishedWorking := projection.publishedWorking ++ [after] }

/-- Replace the turn and publish what changed. -/
def setTurn (projection : SdkSessionProjection) (turn : TurnSnapshot) : SdkSessionProjection :=
  { projection with turn := turn }.publishTurnProjection
    (isActive projection.turn.state) (isActive turn.state)

def applyTurn (projection : SdkSessionProjection) (event : TurnEvent) : SdkSessionProjection :=
  projection.setTurn (reduceTurn projection.turn event)

/-- Reduce and publish a sequence of events. -/
def applyTurns (projection : SdkSessionProjection) (events : List TurnEvent) :
    SdkSessionProjection :=
  events.foldl applyTurn projection

/-- Seed the turn of a user message, unless it steers a turn that is active. -/
def seedUserMessageTurn (projection : SdkSessionProjection) (turnId : String)
    (source : IngressSource) (shouldSteer : Bool) : SeededUserTurn × SdkSessionProjection :=
  let seeded := !shouldSteer || (projection.turn.state.active.map ActiveTurn.turnId).isNone
  let next :=
    if seeded then projection.applyTurn (.userMessageAccepted turnId (some turnId) (some source))
    else projection
  (⟨seeded, projection.turn⟩, next)

end SdkSessionProjection

/-- Restore the turn that was captured at the seed. -/
def SeededUserTurn.rollback (seed : SeededUserTurn) (projection : SdkSessionProjection) :
    SdkSessionProjection :=
  if seed.seeded then projection.setTurn seed.previous else projection

/-- The failure handling of a delivery attempt. -/
def rollbackAttempt (seed : SeededUserTurn) (turnId : String) (projection : SdkSessionProjection) :
    SdkSessionProjection :=
  let restored := seed.rollback projection
  if seed.seeded then restored.applyTurn (.deliveryError (some turnId)) else restored

namespace SdkSessionProjection

variable {projection : SdkSessionProjection}

@[simp] theorem turn_setTurn (turn : TurnSnapshot) : (projection.setTurn turn).turn = turn := by
  rw [setTurn, publishTurnProjection]
  split <;> rfl

@[simp] theorem turn_applyTurn (event : TurnEvent) :
    (projection.applyTurn event).turn = reduceTurn projection.turn event :=
  turn_setTurn _

end SdkSessionProjection

/-! ## What the rollback undoes -/

/-- A delivery attempt that fails: the message, the projection that it is made from, and the
events that are reduced before the failure is known. -/
structure FailedDelivery where
  projection : SdkSessionProjection
  turnId : String
  source : IngressSource
  shouldSteer : Bool
  events : List TurnEvent

namespace FailedDelivery

variable (attempt : FailedDelivery)

/-- The seed of the message. -/
def seed : SeededUserTurn :=
  (attempt.projection.seedUserMessageTurn attempt.turnId attempt.source attempt.shouldSteer).1

/-- The projection just before the failure handling. -/
def before : SdkSessionProjection :=
  (attempt.projection.seedUserMessageTurn attempt.turnId attempt.source
    attempt.shouldSteer).2.applyTurns attempt.events

/-- The projection after the failure handling. -/
def after : SdkSessionProjection := rollbackAttempt attempt.seed attempt.turnId attempt.before

/-- Another turn that was active is still active, and the queued message and the late
attachments are those that the events produced. -/
def UndoesOnlySeed : Prop :=
  (∀ t, t ≠ attempt.turnId → attempt.before.turn.state.active.map ActiveTurn.turnId = some t →
    attempt.after.turn.state.active.map ActiveTurn.turnId = some t) ∧
  attempt.after.turn.queuedMessage = attempt.before.turn.queuedMessage ∧
  attempt.after.turn.lateAttachTargets = attempt.before.turn.lateAttachTargets

/-- The message steers a turn that is active when the attempt is made. -/
def Steers : Prop :=
  attempt.shouldSteer = true ∧ isActive attempt.projection.turn.state = true

/-- No other turn is active when the failure is handled, the queued message is the one of the
seed, and no late attachment is recorded. -/
def Unchanged : Prop :=
  (∀ t, attempt.before.turn.state.active.map ActiveTurn.turnId = some t → t = attempt.turnId) ∧
  attempt.before.turn.queuedMessage = attempt.projection.turn.queuedMessage ∧
  attempt.before.turn.lateAttachTargets = []

variable {attempt}

theorem seeded_iff : attempt.seed.seeded = true ↔ ¬ attempt.Steers := by
  cases steers : attempt.shouldSteer <;>
    simp [seed, SdkSessionProjection.seedUserMessageTurn, Steers, isActive, steers]

theorem after_of_steers (steers : attempt.Steers) : attempt.after = attempt.before := by
  have unseeded : attempt.seed.seeded = false := by
    simpa using mt seeded_iff.mp (not_not.mpr steers)
  simp [after, rollbackAttempt, SeededUserTurn.rollback, unseeded]

/-- A seeded attempt leaves the queue of the seed and an error with nothing recorded. -/
theorem after_of_seeded (seeds : ¬ attempt.Steers) : attempt.after.turn =
    terminalError attempt.projection.turn .deliveryError (some attempt.turnId) := by
  have seeded : attempt.seed.seeded = true := seeded_iff.mpr seeds
  have previous : attempt.seed.previous = attempt.projection.turn := rfl
  simp [after, rollbackAttempt, SeededUserTurn.rollback, seeded, previous, reduceTurn]

end FailedDelivery

/-- The failure handling undoes only the seed exactly when there was no seed, or the events in
between changed no queued message, recorded no late attachment and left no other turn active. -/
theorem rollbackAttempt_undoes_only_seed_iff (attempt : FailedDelivery) :
    attempt.UndoesOnlySeed ↔ attempt.Steers ∨ attempt.Unchanged := by
  by_cases steers : attempt.Steers
  · rw [FailedDelivery.UndoesOnlySeed, FailedDelivery.after_of_steers steers]
    simp [steers]
  · have ended := FailedDelivery.after_of_seeded steers
    have queue : attempt.after.turn.queuedMessage = attempt.projection.turn.queuedMessage := by
      rw [ended]
      rfl
    have targets : attempt.after.turn.lateAttachTargets = [] := by
      rw [ended]
      rfl
    have inactive : attempt.after.turn.state.active = none := by
      rw [ended]
      rfl
    rw [FailedDelivery.UndoesOnlySeed, FailedDelivery.Unchanged, queue, targets, inactive]
    constructor
    · rintro ⟨others, sameQueue, sameTargets⟩
      refine .inr ⟨fun t active => ?_, sameQueue.symm, sameTargets.symm⟩
      by_contra other
      exact absurd (others t other active) (by simp)
    · rintro (contra | ⟨others, sameQueue, sameTargets⟩)
      · exact absurd contra steers
      · exact ⟨fun t other active => absurd (others t active) other, sameQueue.symm,
          sameTargets.symm⟩

/-- A message is queued while the delivery of another one is under way. -/
def queuedMeanwhile : FailedDelivery where
  projection := ⟨initialTurnSnapshot, []⟩
  turnId := "sent"
  source := .app
  shouldSteer := false
  events := [.queuedMessageSet "next" "and then"]

/-- The rollback loses the message that was queued meanwhile. -/
theorem queuedMeanwhile_lost : ¬ queuedMeanwhile.UndoesOnlySeed := by
  rintro ⟨-, queue, -⟩
  cases queue

end OutpostPi.Session
