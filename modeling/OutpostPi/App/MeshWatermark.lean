import Mathlib.Algebra.Order.Ring.Int
import OutpostPi.App.MeshSync

/-!
# What the mesh counters guarantee

The persisted mark of an Owner never decreases (`persisted_le_of_runsTo`). A blob that is applied
is not below it in runs that are `Orderly` (`applied_not_below_watermark`): no pull becomes stale
while it saves its mark, unless its Owner is replaced, and when an Owner becomes current again the
operations that were begun under it hold floors that are not below its mark.

A signature vouches for the version inside a blob only. In runs that are `Honest`, the version
that the relay states beside a blob or in an acknowledgement is one that the Owner has signed, and
then so are all counters (`counters_signed`).
-/

set_option autoImplicit false

namespace OutpostPi.App.MeshSync

open OutpostPi.Lib

variable {s s' : Service} {ownerPk : OwnerPk}

/-! ## Floors -/

namespace Shared

/-- A mark of an Owner is persisted that has not reached the context yet. -/
def SavedFor (s : Shared) (ownerPk : OwnerPk) : Prop :=
  ∃ running ∈ s.running, running.isSaved = true ∧ running.task.ownerPk = ownerPk

/-- The active context is for an Owner, and not below its mark. -/
def ContextCovers (s : Shared) (ownerPk : OwnerPk) : Prop :=
  ∃ context ∈ s.watermarkContext,
    context.ownerPk = ownerPk ∧ s.persisted ownerPk ≤ context.highWatermark

/-- An operation with a floor cannot fall below the mark of its Owner. -/
def Covered (s : Shared) (ownerPk : OwnerPk) (floor : Int) : Prop :=
  s.persisted ownerPk ≤ floor ∨ s.ContextCovers ownerPk ∨ s.SavedFor ownerPk

instance (s : Shared) (ownerPk : OwnerPk) (floor : Int) : Decidable (s.Covered ownerPk floor) :=
  inferInstanceAs (Decidable (_ ∨ (∃ context ∈ s.watermarkContext, _) ∨ ∃ running ∈ s.running, _))

variable {s : Shared} {ownerPk : OwnerPk} {task : Task}

/-- While the queue is idle it has saved nothing that is still to be applied. -/
theorem not_savedFor_of_idle (idle : s.running = none) : ¬ s.SavedFor ownerPk := by
  rintro ⟨running, present, -⟩
  rw [idle] at present
  cases present

theorem le_latestMark (s : Shared) (ownerPk : OwnerPk) (floor : Int) :
    floor ≤ s.latestMark ownerPk floor := by
  rw [latestMark]
  split
  · exact le_rfl
  · split
    · exact le_rfl
    · split
      · next lower => exact lower.le
      · exact le_rfl

/-- While the queue is free, the latest mark of a covered operation is not below the persisted
one. -/
theorem Covered.persisted_le {floor : Int} (covered : s.Covered ownerPk floor)
    (idle : s.running = none) : s.persisted ownerPk ≤ s.latestMark ownerPk floor := by
  rcases covered with below | covers | saved
  · exact below.trans (le_latestMark s ownerPk floor)
  · obtain ⟨active, present, owner, below⟩ := covers
    rw [latestMark, Option.mem_def.mp present]
    dsimp only
    rw [if_neg (not_not.mpr owner)]
    split
    · exact below
    · next higher => exact below.trans (not_lt.mp higher)
  · exact absurd saved (not_savedFor_of_idle idle)

/-- A lower floor that is covered covers a higher one. -/
theorem Covered.mono {floor floor' : Int} (covered : s.Covered ownerPk floor)
    (higher : floor ≤ floor') : s.Covered ownerPk floor' :=
  covered.imp_left fun below => below.trans higher

end Shared

/-! ## The persisted mark never decreases -/

namespace Shared

/-- Saving a watermark lowers none. -/
theorem persisted_le_save (s : Shared) (ownerPk other : OwnerPk) (version : Int) :
    s.persisted other ≤ (s.saveMeshHighWatermark ownerPk version).persisted other := by
  rw [saveMeshHighWatermark]
  split
  · exact le_rfl
  · next higher =>
    dsimp only
    by_cases same : other = ownerPk
    · rw [same, Function.update_self]
      exact (not_le.mp higher).le
    · rw [Function.update_of_ne same]

/-- A call saves nothing itself. -/
theorem Resumes.persisted_eq {s s' : Shared} {task : Task} {stage : Stage} {next : Option Stage}
    (resumes : Resumes s task stage s' next) : s'.persisted = s.persisted := by
  cases resumes <;> rfl

/-- An operation of the queue lowers no watermark. -/
theorem RunsQueue.persisted_le {s s' : Shared} {running : Running} {next : Option Stage}
    (runs : RunsQueue s running s' next) (ownerPk : OwnerPk) :
    s.persisted ownerPk ≤ s'.persisted ownerPk := by
  cases runs with
  | persists task version after turn => exact persisted_le_save s task.ownerPk ownerPk version
  | marks => exact le_rfl
  | frees => exact le_rfl

end Shared

variable {outcome : Shared.Outcome}

/-- A step of an operation, or of the queue. -/
theorem step_resume {i : Nat} (taken : s.step (.resume i outcome) = some s') :
    ∃ flight shared next, s.flights[i]? = some flight ∧
      s.shared.resume flight.task flight.stage outcome = some (shared, next) ∧
      s' = ⟨shared, s.flights.eraseIdx i ++ (next.map (Flight.mk flight.task)).toList⟩ := by
  simp only [Service.step] at taken
  split at taken
  · cases taken
  · next flight found =>
    obtain ⟨⟨shared, next⟩, resumed, rfl⟩ := Option.map_eq_some_iff.mp taken
    exact ⟨flight, shared, next, found, resumed, rfl⟩

/-- A step of the queue carries on its running operation. -/
theorem step_runQueue (taken : s.step (.runQueue outcome) = some s') :
    ∃ running shared next, s.shared.running = some running ∧
      s.shared.runQueue running outcome = some (shared, next) ∧
      s' = ⟨shared, s.flights ++ (next.map (Flight.mk running.task)).toList⟩ := by
  simp only [Service.step] at taken
  split at taken
  · cases taken
  · next running busy =>
    obtain ⟨⟨shared, next⟩, ran, rfl⟩ := Option.map_eq_some_iff.mp taken
    exact ⟨running, shared, next, busy, ran, rfl⟩

/-! ## Blobs are not applied below the mark -/

namespace Shared

variable {s s' : Shared} {task : Task} {stage : Stage} {next : Option Stage} {ownerPk : OwnerPk}

/-- A call does not change for whom the service runs. -/
theorem Resumes.isOwnerCurrent_iff (resumes : Resumes s task stage s' next) :
    s'.IsOwnerCurrent ownerPk ↔ s.IsOwnerCurrent ownerPk := by
  cases resumes <;> exact Iff.rfl

/-- Two Owners are not current at once. -/
theorem IsOwnerCurrent.unique {other : OwnerPk} (current : s.IsOwnerCurrent ownerPk)
    (also : s.IsOwnerCurrent other) : ownerPk = other :=
  Option.some_inj.mp (current.2.symm.trans also.2)

/-- A queue that is taken up saves no mark yet. -/
theorem Covered.take {floor : Int} (covered : s.Covered ownerPk floor) (idle : s.running = none)
    (running : Running) :
    Covered { s with running := some running } ownerPk floor := by
  rcases covered with below | covers | saved
  · exact Or.inl below
  · exact Or.inr (Or.inl covers)
  · exact absurd saved (not_savedFor_of_idle idle)

/-- What an operation does leaves the operations of the current Owner covered. -/
theorem Resumes.covered (resumes : Resumes s task stage s' next)
    (own : s.IsOwnerCurrent task.ownerPk → ∀ floor, stage.floor? = some floor →
      s.Covered task.ownerPk floor)
    (current : s.IsOwnerCurrent ownerPk) {floor : Int} (covered : s.Covered ownerPk floor) :
    s'.Covered ownerPk floor := by
  cases resumes with
  | ends => exact covered
  | moves => exact covered
  | loads next loaded idle isCurrent held kept early =>
    -- the new context is for the current Owner, and the operation that loads it is covered
    obtain rfl := current.unique isCurrent.isOwnerCurrent
    have below := (own current loaded held).persisted_le idle
    exact Or.inr (Or.inl ⟨_, rfl, rfl, below⟩)
  | applies running _ _ _ idle => exact covered.take idle running
  | acknowledges _ stated idle => exact covered.take idle _
  | takes => exact covered
  | signs => exact covered

/-- The operation itself stays covered. -/
theorem Resumes.covered_next {stage' : Stage} (resumes : Resumes s task stage s' (some stage'))
    (own : s.IsOwnerCurrent task.ownerPk → ∀ floor, stage.floor? = some floor →
      s.Covered task.ownerPk floor)
    (current : s.IsOwnerCurrent task.ownerPk) {floor' : Int}
    (held : stage'.floor? = some floor') : s'.Covered task.ownerPk floor' := by
  cases resumes with
  | moves _ floor genuine =>
    rcases floor floor' held with rfl | ⟨before, heldBefore, higher⟩
    · exact Or.inl le_rfl
    · exact (own current before heldBefore).mono higher
  | loads _ loaded idle isCurrent heldBefore kept early =>
    rw [kept, Option.some_inj] at held
    exact Or.inl (held ▸ (own current loaded heldBefore).persisted_le idle)
  | signs before version heldBefore =>
    rw [Stage.floor?, Option.some_inj] at held
    exact held ▸ own current before heldBefore

/-- An operation that takes up the queue does not go below the mark. -/
theorem Resumes.running_not_below (resumes : Resumes s task stage s' next)
    (own : s.IsOwnerCurrent task.ownerPk → ∀ floor, stage.floor? = some floor →
      s.Covered task.ownerPk floor)
    (before : ∀ running ∈ s.running, s.persisted running.task.ownerPk ≤ running.version) :
    ∀ running ∈ s'.running, s'.persisted running.task.ownerPk ≤ running.version := by
  cases resumes with
  | ends => exact before
  | moves => exact before
  | loads => exact before
  | applies running floor version stated idle isCurrent turn owner same unsaved higher =>
    rintro _ ⟨⟩
    have covered := own isCurrent.isOwnerCurrent floor (by rw [turn]; rfl)
    rw [owner, same]
    exact (covered.persisted_le idle).trans higher
  | acknowledges floor stated idle isCurrent turn higher =>
    rintro _ ⟨⟩
    have covered := own isCurrent.isOwnerCurrent floor (by rw [turn]; rfl)
    exact (covered.persisted_le idle).trans higher.le
  | takes => exact before
  | signs => exact before

end Shared

/-- A pull whose Owner is current does not become stale while it saves its mark, and an Owner
becomes current only when the operations that were begun under it are covered. -/
def Orderly (s : Service) : Label → Prop
  | .runQueue _ => ∀ running ∈ s.shared.running, running.isSaved = true →
    s.shared.IsOwnerCurrent running.task.ownerPk → s.shared.IsCurrent running.task
  | .boot ownerPk | .completePendingTransition ownerPk =>
    ∀ flight ∈ s.flights, flight.task.ownerPk = ownerPk →
      ∀ floor ∈ flight.stage.floor?, s.shared.Covered ownerPk floor
  | _ => True

instance (s : Service) : (label : Label) → Decidable (Orderly s label)
  | .runQueue _ => inferInstanceAs (Decidable (∀ running ∈ s.shared.running, _ → _ → _))
  | .boot ownerPk => inferInstanceAs (Decidable (∀ flight ∈ s.flights,
      flight.task.ownerPk = ownerPk → ∀ floor ∈ flight.stage.floor?, _))
  | .completePendingTransition ownerPk => inferInstanceAs (Decidable (∀ flight ∈ s.flights,
      flight.task.ownerPk = ownerPk → ∀ floor ∈ flight.stage.floor?, _))
  | .pullOnDemand _ | .publish | .resume _ _ | .publishAfterPeerMutation | .mutationsPublished
  | .beginTransition | .resetVersionWatermark | .signElsewhere _ _ | .dispose => isTrue trivial

/-- The operations of the current Owner are covered, and so is what is in the queue. -/
structure Guarded (s : Service) : Prop where
  floors : ∀ flight ∈ s.flights, s.shared.IsOwnerCurrent flight.task.ownerPk →
    ∀ floor, flight.stage.floor? = some floor → s.shared.Covered flight.task.ownerPk floor
  running : ∀ running ∈ s.shared.running,
    s.shared.persisted running.task.ownerPk ≤ running.version

/-- A call that goes on keeps the guard. -/
theorem Guarded.resume (guarded : Guarded s) {i : Nat}
    (taken : s.step (.resume i outcome) = some s') : Guarded s' := by
  obtain ⟨flight, shared, next, found, resumed, rfl⟩ := step_resume taken
  have mem : flight ∈ s.flights := List.mem_of_getElem? found
  have resumes := Shared.resumes resumed
  have own := guarded.floors flight mem
  constructor
  · intro other present current floor held
    have currentBefore := resumes.isOwnerCurrent_iff.mp current
    rcases List.mem_append.mp present with old | new
    · have oldMem := List.mem_of_mem_eraseIdx old
      exact resumes.covered own currentBefore (guarded.floors other oldMem currentBefore floor held)
    · cases next with
      | none => cases new
      | some stage' =>
        obtain rfl := List.mem_singleton.mp new
        exact resumes.covered_next own currentBefore held
  · exact resumes.running_not_below own guarded.running

namespace Shared

variable {s s' : Shared} {running : Running} {next : Option Stage} {ownerPk : OwnerPk}

/-- The queue does not change for whom the service runs. -/
theorem RunsQueue.isOwnerCurrent_iff (runs : RunsQueue s running s' next) :
    s'.IsOwnerCurrent ownerPk ↔ s.IsOwnerCurrent ownerPk := by
  cases runs with
  | persists task version after turn =>
    rw [saveMeshHighWatermark]
    split <;> exact Iff.rfl
  | marks => exact Iff.rfl
  | frees => exact Iff.rfl

/-- A mark that is saved is the version, where that is not below it. -/
theorem persisted_save_self {version : Int} (notBelow : s.persisted ownerPk ≤ version) :
    (s.saveMeshHighWatermark ownerPk version).persisted ownerPk = version := by
  rw [saveMeshHighWatermark]
  split
  · next higher => exact le_antisymm notBelow higher
  · exact Function.update_self _ _ _

/-- Saving the watermark of an Owner concerns no other. -/
theorem persisted_save_of_ne {other : OwnerPk} {version : Int} (differs : other ≠ ownerPk) :
    (s.saveMeshHighWatermark ownerPk version).persisted other = s.persisted other := by
  rw [saveMeshHighWatermark]
  split
  · rfl
  · exact Function.update_of_ne differs _ _

theorem context_save {version : Int} :
    (s.saveMeshHighWatermark ownerPk version).watermarkContext = s.watermarkContext := by
  rw [saveMeshHighWatermark]
  split <;> rfl

/-- The queue, when what runs in it has not saved or has saved for another Owner, does not cover
anything. -/
theorem Covered.of_not_savedFor {floor : Int} (covered : s.Covered ownerPk floor)
    (unsaved : ¬ s.SavedFor ownerPk) : s.persisted ownerPk ≤ floor ∨ s.ContextCovers ownerPk := by
  rcases covered with below | covers | saved
  · exact Or.inl below
  · exact Or.inr covers
  · exact absurd saved unsaved

theorem not_savedFor_of_unsaved (busy : s.running = some running)
    (unsaved : running.isSaved = false) : ¬ s.SavedFor ownerPk := by
  rintro ⟨other, present, saved, -⟩
  rw [busy, Option.mem_some_iff] at present
  rw [← present, unsaved] at saved
  cases saved

/-- What runs in the queue leaves the operations of the current Owner covered. -/
theorem RunsQueue.covered (runs : RunsQueue s running s' next) (busy : s.running = some running)
    (orderly : running.isSaved = true → s.IsOwnerCurrent running.task.ownerPk →
      s.IsCurrent running.task)
    (notBelow : s.persisted running.task.ownerPk ≤ running.version)
    (current : s.IsOwnerCurrent ownerPk) {floor : Int} (covered : s.Covered ownerPk floor) :
    s'.Covered ownerPk floor := by
  cases runs with
  | persists task version after turn =>
    subst turn
    by_cases same : ownerPk = task.ownerPk
    · exact Or.inr (Or.inr ⟨_, rfl, rfl, same.symm⟩)
    · -- the marks of the other Owners are as they were
      rcases covered.of_not_savedFor (not_savedFor_of_unsaved busy rfl) with below | covers
      · refine Or.inl ?_
        dsimp only
        rw [persisted_save_of_ne same]
        exact below
      · obtain ⟨context, present, owner, belowContext⟩ := covers
        refine Or.inr (Or.inl ⟨context, ?_, owner, ?_⟩)
        · exact context_save.trans present
        · dsimp only
          rw [persisted_save_of_ne same]
          exact belowContext
  | marks task version after lastVersion rest turn isCurrent kept counted =>
    subst turn
    obtain rfl := current.unique isCurrent.isOwnerCurrent
    exact Or.inr (Or.inl ⟨_, rfl, rfl, notBelow⟩)
  | frees next stale pulled =>
    have unsaved : ¬ s.SavedFor ownerPk := by
      rintro ⟨other, present, saved, owner⟩
      obtain rfl := Option.some_inj.mp (busy.symm.trans present)
      exact stale saved (orderly saved (owner ▸ current))
    exact (covered.of_not_savedFor unsaved).imp_right Or.inl

/-- What runs in the queue stays at the mark or above it. -/
theorem RunsQueue.running_not_below (runs : RunsQueue s running s' next)
    (notBelow : s.persisted running.task.ownerPk ≤ running.version) :
    ∀ later ∈ s'.running, s'.persisted later.task.ownerPk ≤ later.version := by
  cases runs with
  | persists task version after turn =>
    subst turn
    rintro _ ⟨⟩
    exact (persisted_save_self notBelow).le
  | marks task version after lastVersion rest turn isCurrent kept counted =>
    subst turn
    intro later present
    obtain ⟨sameTask, sameVersion, -⟩ := kept later present
    rw [sameTask, sameVersion]
    exact notBelow
  | frees => exact fun _ none => nomatch none

end Shared

/-- An orderly step of the queue keeps the guard. -/
theorem Guarded.runQueue (guarded : Guarded s) (orderly : Orderly s (.runQueue outcome))
    (taken : s.step (.runQueue outcome) = some s') : Guarded s' := by
  obtain ⟨running, shared, next, busy, ran, rfl⟩ := step_runQueue taken
  have notBelow := guarded.running running busy
  have runs := Shared.runsQueue ran
  constructor
  · intro flight present current floor held
    have currentBefore := runs.isOwnerCurrent_iff.mp current
    rcases List.mem_append.mp present with old | new
    · exact runs.covered busy (orderly running busy) notBelow currentBefore
        (guarded.floors flight old currentBefore floor held)
    · -- what the queue gives rise to holds no floor
      exfalso
      cases runs with
      | persists => cases new
      | marks => cases new
      | frees next stale pulled =>
        cases next with
        | none => cases new
        | some stage =>
          obtain rfl := List.mem_singleton.mp new
          obtain ⟨stated, rfl⟩ := pulled stage rfl
          cases held
  · exact runs.running_not_below notBelow

/-- A step that is neither of an operation nor of the queue leaves the marks, the context and the
queue, and makes an Owner current only on purpose. -/
structure Apart (label : Label) (s s' : Service) : Prop where
  persisted : s'.shared.persisted = s.shared.persisted
  context : s'.shared.watermarkContext = s.shared.watermarkContext
  running : s'.shared.running = s.shared.running
  flights : ∀ flight ∈ s'.flights, flight ∈ s.flights ∨ flight.stage = .loading
  owner : ∀ ownerPk, s'.shared.IsOwnerCurrent ownerPk →
    s.shared.IsOwnerCurrent ownerPk ∨ label = .boot ownerPk ∨
      label = .completePendingTransition ownerPk

/-- Starting a call leaves the calls and the queue alone. -/
theorem apart_start (label : Label) (s : Service) (currency : Currency) :
    Apart label s (s.start currency) := by
  rw [Service.start]
  split
  · exact ⟨rfl, rfl, rfl, fun _ => Or.inl, fun _ => Or.inl⟩
  split
  · refine ⟨rfl, rfl, rfl, fun flight mem => ?_, fun _ => Or.inl⟩
    rcases List.mem_append.mp mem with old | new
    · exact Or.inl old
    · exact Or.inr (List.mem_singleton.mp new ▸ rfl)
  · exact ⟨rfl, rfl, rfl, fun _ => Or.inl, fun _ => Or.inl⟩

variable {label : Label}

/-- Every step that is neither of a call nor of the queue leaves them alone. -/
theorem apart_step (taken : s.step label = some s')
    (notResume : ∀ i outcome, label ≠ .resume i outcome)
    (notQueue : ∀ outcome, label ≠ .runQueue outcome) : Apart label s s' := by
  -- one case for each label: only a boot and a completed transition change whose watermark is
  -- current
  cases label with
  | pullOnDemand allowPendingMutation =>
    cases taken
    exact apart_start _ s _
  | publish =>
    cases taken
    exact apart_start _ s _
  | resume i outcome => exact absurd rfl (notResume i outcome)
  | runQueue outcome => exact absurd rfl (notQueue outcome)
  | publishAfterPeerMutation =>
    simp only [Service.step] at taken
    split at taken
    · cases taken
    · cases taken
      exact ⟨rfl, rfl, rfl, fun _ => Or.inl, fun _ => Or.inl⟩
  | mutationsPublished =>
    cases taken
    exact ⟨rfl, rfl, rfl, fun _ => Or.inl, fun _ => Or.inl⟩
  | boot ownerPk =>
    simp only [Service.step] at taken
    obtain ⟨absent, rfl⟩ := Machine.of_guard taken
    refine ⟨rfl, rfl, rfl, fun _ => Or.inl, fun other current => Or.inr (Or.inl ?_)⟩
    have same := current.2
    simp only [Shared.currentOwnerPk, absent.2, Bool.false_eq_true, if_false,
      Option.some_inj] at same
    rw [same]
  | beginTransition =>
    simp only [Service.step] at taken
    split at taken
    · cases taken
    · cases taken
      refine ⟨rfl, rfl, rfl, fun _ => Or.inl, fun other current => ?_⟩
      cases current.2
  | resetVersionWatermark =>
    simp only [Service.step] at taken
    obtain ⟨_, rfl⟩ := Machine.of_guard taken
    exact ⟨rfl, rfl, rfl, fun _ => Or.inl, fun _ => Or.inl⟩
  | completePendingTransition ownerPk =>
    simp only [Service.step] at taken
    obtain ⟨_, rfl⟩ := Machine.of_guard taken
    refine ⟨rfl, rfl, rfl, fun _ => Or.inl, fun other current => Or.inr (Or.inr ?_)⟩
    have same := current.2
    simp only [Shared.currentOwnerPk, Bool.false_eq_true, if_false, Option.some_inj] at same
    rw [same]
  | signElsewhere ownerPk version =>
    simp only [Service.step] at taken
    obtain ⟨_, rfl⟩ := Machine.of_guard taken
    exact ⟨rfl, rfl, rfl, fun _ => Or.inl, fun _ => Or.inl⟩
  | dispose =>
    cases taken
    refine ⟨rfl, rfl, rfl, fun _ => Or.inl, fun other current => ?_⟩
    cases current.1

/-- What is covered stays so. -/
theorem Apart.covered (apart : Apart label s s') {floor : Int}
    (covered : s.shared.Covered ownerPk floor) : s'.shared.Covered ownerPk floor := by
  rw [Shared.Covered, Shared.ContextCovers, Shared.SavedFor, apart.persisted, apart.context,
    apart.running]
  exact covered

/-- Such a step keeps the guard. -/
theorem Guarded.apart (guarded : Guarded s) (orderly : Orderly s label) (apart : Apart label s s') :
    Guarded s' := by
  constructor
  · intro flight present current floor held
    rcases apart.flights flight present with old | fresh
    · apply apart.covered
      rcases apart.owner _ current with before | booted | completed
      · exact guarded.floors flight old before floor held
      · subst booted
        exact orderly flight old rfl floor held
      · subst completed
        exact orderly flight old rfl floor held
    · rw [fresh] at held
      cases held
  · rw [apart.running, apart.persisted]
    exact guarded.running

/-- Orderly steps keep the operations covered. -/
theorem Guarded.step (guarded : Guarded s) (orderly : Orderly s label)
    (taken : s.step label = some s') : Guarded s' := by
  by_cases ofOperation : ∃ i outcome, label = .resume i outcome
  · obtain ⟨i, outcome, rfl⟩ := ofOperation
    exact guarded.resume taken
  by_cases ofQueue : ∃ outcome, label = .runQueue outcome
  · obtain ⟨outcome, rfl⟩ := ofQueue
    exact guarded.runQueue orderly taken
  · refine guarded.apart orderly (apart_step taken ?_ ?_)
    · exact fun i outcome same => ofOperation ⟨i, outcome, same⟩
    · exact fun outcome same => ofQueue ⟨outcome, same⟩

/-- The guard holds in every orderly run. -/
theorem guarded_of_reachable (reached : machine.ReachableUnder Orderly s) : Guarded s := by
  refine reached.invariant (fun t initial => ?_) fun t label t' guarded orderly taken =>
    guarded.step orderly taken
  constructor
  · rw [initial.flights]
    exact fun _ none => nomatch none
  · rw [initial.running]
    exact fun _ none => nomatch none

/-- No step lowers a persisted mark. -/
theorem persisted_le_step (taken : s.step label = some s') (ownerPk : OwnerPk) :
    s.shared.persisted ownerPk ≤ s'.shared.persisted ownerPk := by
  by_cases ofOperation : ∃ i outcome, label = .resume i outcome
  · obtain ⟨i, outcome, rfl⟩ := ofOperation
    obtain ⟨flight, shared, next, -, resumed, rfl⟩ := step_resume taken
    exact ((Shared.resumes resumed).persisted_eq ▸ le_rfl)
  by_cases ofQueue : ∃ outcome, label = .runQueue outcome
  · obtain ⟨outcome, rfl⟩ := ofQueue
    obtain ⟨running, shared, next, -, ran, rfl⟩ := step_runQueue taken
    exact (Shared.runsQueue ran).persisted_le ownerPk
  · have apart : Apart label s s' := by
      refine apart_step taken ?_ ?_
      · exact fun i outcome same => ofOperation ⟨i, outcome, same⟩
      · exact fun outcome same => ofQueue ⟨outcome, same⟩
    rw [apart.persisted]

/-- In an orderly run no blob is applied below the mark of its Owner, and whatever happens later,
no mark decreases. -/
theorem applied_not_below_watermark (reached : machine.ReachableUnder Orderly s) :
    (∀ task version stated, s.shared.running = some (.replacing task version stated) →
      s.shared.persisted task.ownerPk ≤ version) ∧
    ∀ later, machine.RunsTo Machine.Always s later → ∀ ownerPk,
      s.shared.persisted ownerPk ≤ later.shared.persisted ownerPk := by
  constructor
  · intro task version stated applying
    exact (guarded_of_reachable reached).running _ applying
  · intro later run
    refine run.invariant (I := fun t => ∀ ownerPk,
      s.shared.persisted ownerPk ≤ t.shared.persisted ownerPk) ?_ fun _ => le_rfl
    intro t label t' below _ taken ownerPk
    exact (below ownerPk).trans (persisted_le_step taken ownerPk)

/-- Two Owners. -/
def thisOwner : OwnerPk := List.replicate 32 1

def otherOwner : OwnerPk := List.replicate 32 2

/-- A service that has just started. -/
def freshService : Service where
  shared :=
    { identity := none
      transitionPending := false
      cleaned := false
      disposed := false
      mutationRevision := 0
      mutationPending := false
      lastVersion := 0
      watermarkContext := none
      running := none
      persisted := fun _ => 0
      signed := [] }
  flights := []

theorem initial_freshService : Initial freshService :=
  ⟨rfl, rfl, rfl, rfl, rfl, rfl, fun _ => Or.inl rfl⟩

/-- A pull applies version 9. -/
theorem applied_not_below_watermark_pull :
    ∃ s, machine.ReachableUnder Orderly s ∧
      s.shared.running = some (.replacing ⟨thisOwner, .pull 0 false⟩ 9 9) ∧
      s.shared.persisted thisOwner ≤ 9 := by
  let schedule : List Label :=
    [.boot thisOwner, .signElsewhere thisOwner 9, .pullOnDemand false, .resume 0 .done,
      .resume 0 .done, .resume 0 .done, .resume 0 .done, .resume 0 .done,
      .resume 0 (.fetched (.ok (thisOwner, 9) 9)), .resume 0 .done, .resume 0 .done,
      .runQueue .done, .runQueue .done]
  have ran : (machine.exec freshService schedule).any (fun s =>
      decide (s.shared.running = some (.replacing ⟨thisOwner, .pull 0 false⟩ 9 9))) = true := by
    decide +kernel
  have meets : machine.Meets Orderly freshService schedule := by decide +kernel
  obtain ⟨s, executed, applying⟩ := (Option.any_eq_true _ _).mp ran
  have reached : machine.ReachableUnder Orderly s :=
    ⟨freshService, initial_freshService, Machine.runsTo_of_exec meets executed⟩
  have running := of_decide_eq_true applying
  exact ⟨s, reached, running, (applied_not_below_watermark reached).1 _ _ _ running⟩

/-- Two pulls of an Owner begin before it is replaced. The first saves version 9 while the other
Owner takes over, and when the first Owner is back the second applies version 5. -/
theorem exists_applied_below_watermark :
    ∃ s, machine.Reachable s ∧
      s.shared.running = some (.replacing ⟨thisOwner, .pull 0 false⟩ 5 5) ∧
      s.shared.persisted thisOwner = 9 := by
  let schedule : List Label :=
    [.boot thisOwner, .signElsewhere thisOwner 9, .signElsewhere thisOwner 5, .pullOnDemand false,
      .pullOnDemand false, .resume 0 .done, .resume 1 .done, .resume 1 .done, .resume 1 .done,
      .resume 1 .done, .resume 0 .done, .resume 1 .done, .resume 1 .done, .resume 1 .done,
      .resume 0 (.fetched (.ok (thisOwner, 9) 9)), .resume 1 .done, .resume 1 .done,
      .beginTransition, .runQueue .done, .runQueue .done, .resetVersionWatermark,
      .completePendingTransition otherOwner, .beginTransition, .resetVersionWatermark,
      .completePendingTransition thisOwner,
      .resume 0 (.fetched (.ok (thisOwner, 5) 5)), .resume 0 .done, .resume 0 .done,
      .runQueue .done, .runQueue .done]
  have ran : (machine.exec freshService schedule).any (fun s =>
      decide (s.shared.running = some (.replacing ⟨thisOwner, .pull 0 false⟩ 5 5)) &&
        decide (s.shared.persisted thisOwner = 9)) = true := by
    decide +kernel
  obtain ⟨s, executed, facts⟩ := (Option.any_eq_true _ _).mp ran
  obtain ⟨applying, mark⟩ := (Bool.and_eq_true_iff).mp facts
  exact ⟨s, Machine.reachable_of_exec initial_freshService executed,
    of_decide_eq_true applying, of_decide_eq_true mark⟩

/-! ## Counters are signed -/

namespace Shared

/-- A version is that of a blob that the Owner has signed, or 0. -/
def Vouched (s : Shared) (ownerPk : OwnerPk) (version : Int) : Prop :=
  version = 0 ∨ (ownerPk, version) ∈ s.signed

instance (s : Shared) (ownerPk : OwnerPk) (version : Int) : Decidable (s.Vouched ownerPk version) :=
  inferInstanceAs (Decidable (_ ∨ _))

/-- The version that the relay states and that a current operation is about to count: the one
beside a blob that has been applied, or one in an acknowledgement that is higher than a counter. -/
def counted? (s : Shared) (ownerPk : OwnerPk) : Stage → Option Int
  | .pulled stated => some stated
  | .acknowledging floor stated =>
    if s.latestMark ownerPk floor < stated ∨ s.lastVersion < stated then some stated else none
  | _ => none

/-- All counters are versions of signed blobs, and so are the versions that are about to become
counters. -/
structure Genuine (s : Shared) : Prop where
  marks : ∀ ownerPk, s.Vouched ownerPk (s.persisted ownerPk)
  lastVersion : s.lastVersion = 0 ∨
    ∃ ownerPk, s.identity = some ownerPk ∧ (ownerPk, s.lastVersion) ∈ s.signed
  cleaned : s.transitionPending = true → s.cleaned = true → s.lastVersion = 0
  running : ∀ running ∈ s.running, s.Vouched running.task.ownerPk running.version

variable {s s' : Shared} {task : Task} {stage : Stage} {next : Option Stage} {running : Running}
  {ownerPk : OwnerPk}

/-- A service that runs for an Owner has its identity and is not in transition. -/
theorem IsOwnerCurrent.identity (current : s.IsOwnerCurrent ownerPk) :
    s.transitionPending = false ∧ s.identity = some ownerPk := by
  have same := current.2
  rw [currentOwnerPk] at same
  split at same
  · cases same
  · next settled => exact ⟨Bool.eq_false_of_not_eq_true settled, same⟩

/-- A current operation counts a version that is vouched for. -/
theorem Genuine.count (genuine : s.Genuine) (current : s.IsOwnerCurrent ownerPk) {version : Int}
    (vouched : s.Vouched ownerPk version) : { s with lastVersion := version }.Genuine := by
  obtain ⟨settled, identity⟩ := current.identity
  refine ⟨genuine.marks, ?_, ?_, genuine.running⟩
  · exact vouched.imp_right fun signed => ⟨ownerPk, identity, signed⟩
  · intro pending
    rw [settled] at pending
    cases pending

/-- It may also keep the higher of two versions. -/
theorem Genuine.countMax (genuine : s.Genuine) (current : s.IsOwnerCurrent ownerPk)
    {version : Int} (vouched : s.lastVersion < version → s.Vouched ownerPk version) :
    { s with lastVersion := max s.lastVersion version }.Genuine := by
  by_cases higher : s.lastVersion < version
  · rw [max_eq_right higher.le]
    exact genuine.count current (vouched higher)
  · rw [max_eq_left (not_lt.mp higher)]
    exact genuine

theorem Genuine.run (genuine : s.Genuine) {rest : Option Running}
    (vouched : ∀ running ∈ rest, s.Vouched running.task.ownerPk running.version) :
    { s with running := rest }.Genuine :=
  { genuine with running := vouched }

/-- More blobs may be signed. -/
theorem Genuine.sign (genuine : s.Genuine) (version : Int) :
    { s with signed := (ownerPk, version) :: s.signed }.Genuine := by
  refine ⟨?_, ?_, genuine.cleaned, ?_⟩
  · exact fun other => (genuine.marks other).imp_right (List.mem_cons_of_mem _)
  · refine genuine.lastVersion.imp_right ?_
    rintro ⟨other, identity, signed⟩
    exact ⟨other, identity, List.mem_cons_of_mem _ signed⟩
  · exact fun running present =>
      (genuine.running running present).imp_right (List.mem_cons_of_mem _)

/-- What an operation does keeps the counters signed. -/
theorem Resumes.genuine (resumes : Resumes s task stage s' next) (genuine : s.Genuine)
    (verified : ∀ floor version stated, stage = .applying floor version stated →
      (task.ownerPk, version) ∈ s.signed)
    (honest : s.IsCurrent task →
      ∀ version ∈ s.counted? task.ownerPk stage, s.Vouched task.ownerPk version) :
    s'.Genuine := by
  cases resumes with
  | ends => exact genuine
  | moves => exact genuine
  | loads =>
    exact { genuine with }
  | applies running floor version stated idle current turn owner same unsaved higher =>
    refine genuine.run ?_
    rintro _ ⟨⟩
    rw [owner, same]
    exact Or.inr (verified floor version stated turn)
  | acknowledges floor stated idle current turn higher =>
    refine genuine.run ?_
    rintro _ ⟨⟩
    exact honest current stated (by rw [turn, counted?, if_pos (Or.inl higher)]; rfl)
  | takes version current turn =>
    rcases turn with rfl | ⟨floor, stated, rfl, rfl⟩
    · exact genuine.count current.isOwnerCurrent (honest current version rfl)
    · refine genuine.countMax current.isOwnerCurrent fun higher => ?_
      exact honest current stated (by rw [counted?, if_pos (Or.inr higher)]; rfl)
  | signs floor version => exact genuine.sign version

/-- So does what runs in the queue. -/
theorem RunsQueue.genuine (runs : RunsQueue s running s' next) (busy : s.running = some running)
    (genuine : s.Genuine) : s'.Genuine := by
  have vouched := genuine.running running busy
  cases runs with
  | persists task version after turn =>
    subst turn
    rw [saveMeshHighWatermark]
    split
    · refine genuine.run ?_
      rintro _ ⟨⟩
      exact vouched
    · refine ⟨fun other => ?_, genuine.lastVersion, genuine.cleaned, ?_⟩
      · dsimp only
        by_cases same : other = task.ownerPk
        · rw [same, Function.update_self]
          exact vouched
        · rw [Function.update_of_ne same]
          exact genuine.marks other
      · rintro _ ⟨⟩
        exact vouched
  | marks task version after lastVersion rest turn current kept counted =>
    subst turn
    have remaining : { s with running := rest }.Genuine := by
      refine genuine.run fun later present => ?_
      obtain ⟨sameTask, sameVersion, -⟩ := kept later present
      rw [sameTask, sameVersion]
      exact vouched
    have recounted : { s with running := rest, lastVersion := lastVersion }.Genuine := by
      rcases counted with rfl | rfl
      · exact remaining
      · have ofTask : { s with running := rest }.IsOwnerCurrent task.ownerPk :=
          current.isOwnerCurrent
        exact remaining.countMax ofTask fun _ => vouched
    exact { recounted with }
  | frees => exact genuine.run fun _ none => nomatch none

end Shared

/-- Every version that the relay states and that the service counts is the version of some blob
that the Owner has signed. -/
def Honest (s : Service) : Label → Prop
  | .resume i _ => ∀ flight ∈ s.flights[i]?, s.shared.IsCurrent flight.task →
    ∀ version ∈ s.shared.counted? flight.task.ownerPk flight.stage,
      s.shared.Vouched flight.task.ownerPk version
  | _ => True

instance (s : Service) : (label : Label) → Decidable (Honest s label)
  | .resume i _ => inferInstanceAs (Decidable (∀ flight ∈ s.flights[i]?, _ → ∀ version ∈ _, _))
  | .pullOnDemand _ | .publish | .runQueue _ | .publishAfterPeerMutation | .mutationsPublished
  | .boot _ | .beginTransition | .resetVersionWatermark | .completePendingTransition _
  | .signElsewhere _ _ | .dispose => isTrue trivial

/-- The counters are signed, and only verified blobs wait to be applied. -/
structure Authentic (s : Service) : Prop where
  shared : s.shared.Genuine
  verified : ∀ flight ∈ s.flights, ∀ floor version stated,
    flight.stage = .applying floor version stated →
      (flight.task.ownerPk, version) ∈ s.shared.signed

/-- What has been signed stays so. -/
theorem Shared.Resumes.signed_subset {s s' : Shared} {task : Task} {stage : Stage}
    {next : Option Stage} (resumes : Resumes s task stage s' next) : s.signed ⊆ s'.signed := by
  cases resumes with
  | signs => exact List.subset_cons_self _ _
  | _ => exact List.Subset.refl _

theorem Shared.RunsQueue.signed_eq {s s' : Shared} {running : Running} {next : Option Stage}
    (runs : RunsQueue s running s' next) : s'.signed = s.signed := by
  cases runs with
  | persists =>
    rw [saveMeshHighWatermark]
    split <;> rfl
  | marks => rfl
  | frees => rfl

/-- A call takes up only what its Owner has signed. -/
theorem Authentic.resume (authentic : Authentic s) {i : Nat}
    (honest : Honest s (.resume i outcome)) (taken : s.step (.resume i outcome) = some s') :
    Authentic s' := by
  obtain ⟨flight, shared, next, found, resumed, rfl⟩ := step_resume taken
  have verified := authentic.verified flight (List.mem_of_getElem? found)
  have resumes := Shared.resumes resumed
  constructor
  · exact resumes.genuine authentic.shared verified (honest flight found)
  · intro other present floor version stated applying
    rcases List.mem_append.mp present with old | new
    · exact resumes.signed_subset
        (authentic.verified other (List.mem_of_mem_eraseIdx old) floor version stated applying)
    · cases next with
      | none => cases new
      | some stage' =>
        obtain rfl := List.mem_singleton.mp new
        dsimp only at applying
        cases resumes with
        | moves _ _ genuine => exact genuine floor version stated applying
        | loads _ _ _ _ _ _ early => exact absurd applying (early floor version stated)
        | signs => cases applying

/-- The queue applies only what a call has taken up. -/
theorem Authentic.runQueue (authentic : Authentic s)
    (taken : s.step (.runQueue outcome) = some s') : Authentic s' := by
  obtain ⟨running, shared, next, busy, ran, rfl⟩ := step_runQueue taken
  have runs := Shared.runsQueue ran
  constructor
  · exact runs.genuine busy authentic.shared
  · intro flight present floor version stated applying
    dsimp only
    rw [runs.signed_eq]
    rcases List.mem_append.mp present with old | new
    · exact authentic.verified flight old floor version stated applying
    · exfalso
      cases runs with
      | persists => cases new
      | marks => cases new
      | frees next stale pulled =>
        cases next with
        | none => cases new
        | some stage =>
          obtain rfl := List.mem_singleton.mp new
          obtain ⟨stated', rfl⟩ := pulled stage rfl
          cases applying

theorem shared_start (s : Service) (currency : Currency) :
    (s.start currency).shared = s.shared := by
  rw [Service.start]
  split
  · rfl
  · split <;> rfl

/-- A call begins with nothing. -/
theorem Authentic.start (authentic : Authentic s) (currency : Currency) :
    Authentic (s.start currency) := by
  constructor
  · rw [shared_start]
    exact authentic.shared
  · intro flight present floor version stated applying
    rw [shared_start]
    rcases (apart_start .publish s currency).flights flight present with old | fresh
    · exact authentic.verified flight old floor version stated applying
    · rw [fresh] at applying
      cases applying

/-- Every step with an honest relay keeps what is stored authentic. -/
theorem Authentic.step (authentic : Authentic s) (honest : Honest s label)
    (taken : s.step label = some s') : Authentic s' := by
  cases label with
  | pullOnDemand allowPendingMutation =>
    cases taken
    exact authentic.start _
  | publish =>
    cases taken
    exact authentic.start _
  | resume i outcome => exact authentic.resume honest taken
  | runQueue outcome => exact authentic.runQueue taken
  | publishAfterPeerMutation =>
    simp only [Service.step] at taken
    split at taken
    · cases taken
    · cases taken
      exact ⟨⟨authentic.shared.marks, authentic.shared.lastVersion, authentic.shared.cleaned,
        authentic.shared.running⟩, authentic.verified⟩
  | mutationsPublished =>
    cases taken
    exact ⟨⟨authentic.shared.marks, authentic.shared.lastVersion, authentic.shared.cleaned,
      authentic.shared.running⟩, authentic.verified⟩
  | boot ownerPk =>
    simp only [Service.step] at taken
    obtain ⟨absent, rfl⟩ := Machine.of_guard taken
    -- nothing was counted for another Owner
    have fresh : s.shared.lastVersion = 0 := by
      rcases authentic.shared.lastVersion with zero | ⟨other, identity, -⟩
      · exact zero
      · rw [absent.1] at identity
        cases identity
    exact ⟨⟨authentic.shared.marks, Or.inl fresh, fun _ _ => fresh, authentic.shared.running⟩,
      authentic.verified⟩
  | beginTransition =>
    simp only [Service.step] at taken
    split at taken
    · cases taken
    · cases taken
      exact ⟨⟨authentic.shared.marks, authentic.shared.lastVersion,
        fun _ cleaned => absurd cleaned Bool.false_ne_true, authentic.shared.running⟩,
        authentic.verified⟩
  | resetVersionWatermark =>
    simp only [Service.step] at taken
    obtain ⟨_, rfl⟩ := Machine.of_guard taken
    exact ⟨⟨authentic.shared.marks, Or.inl rfl, fun _ _ => rfl, authentic.shared.running⟩,
      authentic.verified⟩
  | completePendingTransition ownerPk =>
    simp only [Service.step] at taken
    obtain ⟨cleaned, rfl⟩ := Machine.of_guard taken
    have fresh := authentic.shared.cleaned cleaned.1 cleaned.2
    exact ⟨⟨authentic.shared.marks, Or.inl fresh, fun _ _ => fresh, authentic.shared.running⟩,
      authentic.verified⟩
  | signElsewhere ownerPk version =>
    simp only [Service.step] at taken
    obtain ⟨_, rfl⟩ := Machine.of_guard taken
    exact ⟨authentic.shared.sign version, fun flight present floor version stated applying =>
      List.mem_cons_of_mem _ (authentic.verified flight present floor version stated applying)⟩
  | dispose =>
    cases taken
    exact ⟨⟨authentic.shared.marks, authentic.shared.lastVersion, authentic.shared.cleaned,
      authentic.shared.running⟩, authentic.verified⟩

/-- In an honest run the last version and every persisted mark is 0 or the version of a blob that
the Owner has signed. -/
theorem counters_signed (reached : machine.ReachableUnder Honest s) :
    (s.shared.lastVersion = 0 ∨ ∃ ownerPk, s.shared.identity = some ownerPk ∧
      (ownerPk, s.shared.lastVersion) ∈ s.shared.signed) ∧
    ∀ ownerPk, s.shared.persisted ownerPk = 0 ∨
      (ownerPk, s.shared.persisted ownerPk) ∈ s.shared.signed := by
  have authentic : Authentic s := by
    refine reached.invariant (fun t initial => ?_) fun t label t' authentic honest taken =>
      authentic.step honest taken
    refine ⟨⟨initial.persisted, Or.inl initial.lastVersion, fun _ _ => initial.lastVersion, ?_⟩, ?_⟩
    · rw [initial.running]
      exact fun _ none => nomatch none
    · rw [initial.flights]
      exact fun _ none => nomatch none
  exact ⟨authentic.shared.lastVersion, authentic.shared.marks⟩

/-- The mark that one pull saves is signed. -/
theorem counters_signed_pull :
    ∃ s, machine.ReachableUnder Honest s ∧ s.shared.lastVersion = 9 ∧
      (s.shared.persisted thisOwner = 0 ∨
        (thisOwner, s.shared.persisted thisOwner) ∈ s.shared.signed) := by
  let schedule : List Label :=
    [.boot thisOwner, .signElsewhere thisOwner 9, .pullOnDemand false, .resume 0 .done,
      .resume 0 .done, .resume 0 .done, .resume 0 .done, .resume 0 .done,
      .resume 0 (.fetched (.ok (thisOwner, 9) 9)), .resume 0 .done, .resume 0 .done,
      .runQueue .done, .runQueue .done, .runQueue .done, .resume 0 .done]
  have ran : (machine.exec freshService schedule).any (fun s =>
      decide (s.shared.lastVersion = 9)) = true := by
    decide +kernel
  have meets : machine.Meets Honest freshService schedule := by decide +kernel
  obtain ⟨s, executed, counted⟩ := (Option.any_eq_true _ _).mp ran
  have reached : machine.ReachableUnder Honest s :=
    ⟨freshService, initial_freshService, Machine.runsTo_of_exec meets executed⟩
  exact ⟨s, reached, of_decide_eq_true counted, (counters_signed reached).2 thisOwner⟩

/-- A publication of version 1 is acknowledged as version 1000000, which nobody has signed. -/
theorem exists_unsigned_counters :
    ∃ s, machine.Reachable s ∧ s.shared.signed = [(thisOwner, 1)] ∧
      s.shared.lastVersion = 1000000 ∧ s.shared.persisted thisOwner = 1000000 := by
  let schedule : List Label :=
    [.boot thisOwner, .publish, .resume 0 .done, .resume 0 .done, .resume 0 .done, .resume 0 .done,
      .resume 0 .done, .resume 0 .done, .resume 0 .done, .resume 0 .done,
      .resume 0 (.published (some 1000000)), .resume 0 .done, .runQueue .done, .runQueue .done]
  have ran : (machine.exec freshService schedule).any (fun s =>
      decide (s.shared.signed = [(thisOwner, 1)]) &&
        (decide (s.shared.lastVersion = 1000000) &&
          decide (s.shared.persisted thisOwner = 1000000))) = true := by
    decide +kernel
  obtain ⟨s, executed, facts⟩ := (Option.any_eq_true _ _).mp ran
  obtain ⟨signed, counters⟩ := (Bool.and_eq_true_iff).mp facts
  obtain ⟨lastVersion, mark⟩ := (Bool.and_eq_true_iff).mp counters
  exact ⟨s, Machine.reachable_of_exec initial_freshService executed, of_decide_eq_true signed,
    of_decide_eq_true lastVersion, of_decide_eq_true mark⟩

end OutpostPi.App.MeshSync
