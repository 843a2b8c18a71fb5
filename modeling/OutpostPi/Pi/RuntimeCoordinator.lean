import OutpostPi.Lib.Json
import OutpostPi.Lib.Machine
import Mathlib.Data.Finset.Erase
import Mathlib.Data.Finset.Insert

/-!
# The runtime coordinator

Extension factories run for the session of the user and for the child sessions in its process.
Each acquires a lease, and the runtime belongs to the lease whose session start is accepted.
A lease is classified once, when it is acquired: it is the candidate where no other lease is
one, and a satellite otherwise.

`activation_granted_iff` says what a coordinator guarantees in every run: no child session is
granted the runtime, an owner is removed by itself only, and a former owner never returns.
It also says which activations are granted while the runtime has no owner. A lease acquired
beside a candidate is not among them, even where that candidate is denied as a child later;
`exists_real_session_denied` is such a run.
-/

set_option autoImplicit false

namespace OutpostPi.Pi

open OutpostPi.Lib OutpostPi.Lib.Machine

/-! ## Leases and states -/

/-- The transitions that replace a session. -/
inductive ReplacementReason where
  | reload
  | new
  | resume
  | fork
  deriving DecidableEq

/-- Why a session begins or ends. -/
inductive SessionLifecycleReason where
  | startup
  | quit
  | replacement (reason : ReplacementReason)
  deriving DecidableEq

/-- A factory lease, as its place in the order of creation. -/
abbrev FactoryLease := Nat

/-- What a factory is to the runtime. -/
inductive LeaseDisposition where
  | candidate
  | satellite
  | owner
  deriving DecidableEq

/-- Who has the runtime. -/
inductive CoordinatorState where
  | unowned
  | candidate (candidate : FactoryLease)
  | active (owner : FactoryLease) (sessionId : String)
  | replacing (previousOwner : FactoryLease) (reason : ReplacementReason)
      (candidate : Option FactoryLease)
  | disposed
  deriving DecidableEq

/-- Why a factory is not activated. -/
inductive DenialReason where
  | child
  | satellite
  | disposed
  deriving DecidableEq

/-- What comes of a session start. -/
inductive Activation where
  | activated
  | duplicate
  | denied (reason : DenialReason)
  deriving DecidableEq

namespace CoordinatorState

/-- The lease that waits for its session start. -/
def standing : CoordinatorState → Option FactoryLease
  | .candidate lease => some lease
  | .replacing _ _ lease => lease
  | _ => none

/-- The lease that has the runtime. -/
def holder : CoordinatorState → Option FactoryLease
  | .active owner _ => some owner
  | _ => none

/-- No lease has the runtime, and one may still get it. -/
def Ownerless : CoordinatorState → Prop
  | .unowned => True
  | .candidate _ => True
  | .replacing _ _ _ => True
  | _ => False

instance : DecidablePred Ownerless
  | .unowned => inferInstanceAs (Decidable True)
  | .candidate _ => inferInstanceAs (Decidable True)
  | .replacing _ _ _ => inferInstanceAs (Decidable True)
  | .active _ _ => inferInstanceAs (Decidable False)
  | .disposed => inferInstanceAs (Decidable False)

end CoordinatorState

/-! ## The coordinator -/

/-- The coordinator of a process, with its factories and the sessions of its children. -/
structure RuntimeCoordinator where
  state : CoordinatorState
  leases : FactoryLease → Option LeaseDisposition
  childSessionIds : Finset String
  /-- The leases created so far. -/
  created : Nat

/-- The session id of a child lifecycle event. -/
def childSessionId (payload : Json) : Option String :=
  match payload.field "sessionId" with
  | some (.string sessionId) => if sessionId.isEmpty then none else some sessionId
  | _ => none

namespace RuntimeCoordinator

variable (c : RuntimeCoordinator)

/-- A factory becomes something else to the runtime. -/
def setLease (lease : FactoryLease) (disposition : LeaseDisposition) : RuntimeCoordinator :=
  { c with leases := Function.update c.leases lease (some disposition) }

/-- The runtime passes on. -/
def setState (state : CoordinatorState) : RuntimeCoordinator := { c with state }

/-- The state with a fresh lease, and whether the lease is its candidate. -/
def acquireFactory : RuntimeCoordinator × FactoryLease :=
  let lease := c.created
  let next := { c with created := lease + 1 }
  (match c.state with
    | .unowned => (next.setState (.candidate lease)).setLease lease .candidate
    | .replacing previousOwner reason none =>
      (next.setState (.replacing previousOwner reason (some lease))).setLease lease .candidate
    | _ => next.setLease lease .satellite, lease)

/-- A session of a child is known by its id. -/
def onChildSessionCreated (payload : Json) : RuntimeCoordinator :=
  match childSessionId payload with
  | some sessionId => { c with childSessionIds := insert sessionId c.childSessionIds }
  | none => c

/-- The session of a child is over. -/
def onChildDisposed (payload : Json) : RuntimeCoordinator :=
  match childSessionId payload with
  | some sessionId => { c with childSessionIds := c.childSessionIds.erase sessionId }
  | none => c

/-- The factory has the runtime. -/
def isOwner (lease : FactoryLease) : Bool := c.state.holder = some lease

/-- A factory that is not activated is a satellite, and no candidate any more. -/
def rejectCandidate (lease : FactoryLease) : RuntimeCoordinator :=
  if c.isOwner lease then c
  else
    let rejected := c.setLease lease .satellite
    match c.state with
    | .candidate candidate => if candidate = lease then rejected.setState .unowned else rejected
    | .replacing previousOwner reason (some candidate) =>
      if candidate = lease then rejected.setState (.replacing previousOwner reason none)
      else rejected
    | _ => rejected

/-- Whether another lease than this one is the candidate that the state waits for. -/
def awaitsOther (lease : FactoryLease) : Bool :=
  match c.state with
  | .candidate candidate => candidate ≠ lease
  | .replacing _ _ candidate => candidate ≠ some lease
  | _ => false

/-- A session starts in a factory. -/
def activate (lease : FactoryLease) (sessionId : String) : RuntimeCoordinator × Activation :=
  if c.state = .disposed then (c, .denied .disposed)
  else if c.state = .active lease sessionId then (c, .duplicate)
  else if sessionId ∈ c.childSessionIds then (c.rejectCandidate lease, .denied .child)
  else if c.isOwner lease then (c.setState (.active lease sessionId), .activated)
  else if c.leases lease ≠ some .candidate then (c, .denied .satellite)
  else if c.awaitsOther lease then (c, .denied .satellite)
  else ((c.setLease lease .owner).setState (.active lease sessionId), .activated)

/-- A session ends in a factory. Only that of the owner changes anything. -/
def beginShutdown (lease : FactoryLease) (reason : SessionLifecycleReason) :
    RuntimeCoordinator × Bool :=
  if c.isOwner lease then
    (match reason with
      | .quit => c.setState .disposed
      | .startup => c.setState .disposed
      | .replacement reason => c.setState (.replacing lease reason none), true)
  else (c, false)

end RuntimeCoordinator

/-! ## Runs -/

/-- A call on the coordinator, or a child lifecycle event that it hears. -/
inductive CoordinatorCall where
  | acquireFactory
  | activate (lease : FactoryLease) (sessionId : String)
  | beginShutdown (lease : FactoryLease) (reason : SessionLifecycleReason)
  | childSessionCreated (payload : Json)
  | childDisposed (payload : Json)

/-- The coordinator, and what its run has been like. -/
structure CoordinatorRun where
  coordinator : RuntimeCoordinator
  /-- The leases created before the present interval without an owner. -/
  since : Nat
  /-- The leases that were acquired while another was the candidate. -/
  contended : List FactoryLease
  /-- The leases that were denied as children. -/
  refused : List FactoryLease

namespace CoordinatorRun

/-- A factory is created, and contended if another one stands. -/
def acquired (w : CoordinatorRun) : CoordinatorRun :=
  { w with
    coordinator := w.coordinator.acquireFactory.1
    contended :=
      if w.coordinator.state.standing.isSome then w.coordinator.created :: w.contended
      else w.contended }

/-- A session starts in a factory, and the factory is noted if it is refused as a child. -/
def started (w : CoordinatorRun) (lease : FactoryLease) (sessionId : String) : CoordinatorRun :=
  { w with
    coordinator := (w.coordinator.activate lease sessionId).1
    refused :=
      if (w.coordinator.activate lease sessionId).2 = .denied .child then lease :: w.refused
      else w.refused }

/-- A session ends in a factory. -/
def shutDown (w : CoordinatorRun) (lease : FactoryLease) (reason : SessionLifecycleReason) :
    CoordinatorRun :=
  { w with
    coordinator := (w.coordinator.beginShutdown lease reason).1
    since := if w.coordinator.isOwner lease then w.coordinator.created else w.since }

/-- A lease can be used by the factory that acquired it only, so it is one of those created. -/
def step (w : CoordinatorRun) : CoordinatorCall → Option CoordinatorRun
  | .acquireFactory => some w.acquired
  | .activate lease sessionId =>
    if lease < w.coordinator.created then some (w.started lease sessionId) else none
  | .beginShutdown lease reason =>
    if lease < w.coordinator.created then some (w.shutDown lease reason) else none
  | .childSessionCreated payload =>
    some { w with coordinator := w.coordinator.onChildSessionCreated payload }
  | .childDisposed payload => some { w with coordinator := w.coordinator.onChildDisposed payload }

/-- The lease was acquired in the present interval without an owner, and every lease acquired
before it in that interval has been denied as a child. -/
def Due (w : CoordinatorRun) (lease : FactoryLease) : Prop :=
  w.coordinator.state.Ownerless ∧ w.since ≤ lease ∧ lease < w.coordinator.created ∧
    ∀ earlier < lease, w.since ≤ earlier → earlier ∈ w.refused

instance (w : CoordinatorRun) (lease : FactoryLease) : Decidable (w.Due lease) :=
  inferInstanceAs (Decidable (_ ∧ _ ∧ _ ∧ _))

end CoordinatorRun

/-- The runs of a coordinator. -/
def coordinatorMachine : Machine CoordinatorRun CoordinatorCall where
  Init := fun w => w = ⟨⟨.unowned, fun _ => none, ∅, 0⟩, 0, [], []⟩
  step := CoordinatorRun.step

/-! ## What a call does -/

section Calls

variable {c : RuntimeCoordinator} {lease other : FactoryLease} {sessionId : String}

@[simp] theorem RuntimeCoordinator.state_setLease (disposition : LeaseDisposition) :
    (c.setLease lease disposition).state = c.state := rfl

@[simp] theorem RuntimeCoordinator.created_setLease (disposition : LeaseDisposition) :
    (c.setLease lease disposition).created = c.created := rfl

@[simp] theorem RuntimeCoordinator.leases_setLease_self (disposition : LeaseDisposition) :
    (c.setLease lease disposition).leases lease = some disposition :=
  Function.update_self ..

theorem RuntimeCoordinator.leases_setLease_of_ne (differs : other ≠ lease)
    (disposition : LeaseDisposition) : (c.setLease lease disposition).leases other = c.leases other :=
  Function.update_of_ne differs ..

@[simp] theorem RuntimeCoordinator.state_setState (state : CoordinatorState) :
    (c.setState state).state = state := rfl

@[simp] theorem RuntimeCoordinator.leases_setState (state : CoordinatorState) :
    (c.setState state).leases = c.leases := rfl

@[simp] theorem RuntimeCoordinator.created_setState (state : CoordinatorState) :
    (c.setState state).created = c.created := rfl

/-- The owner holds the runtime. -/
theorem RuntimeCoordinator.isOwner_iff : c.isOwner lease = true ↔ c.state.holder = some lease :=
  decide_eq_true_iff

variable (c lease sessionId)

/-- A rejected lease waits no longer, and the state keeps what else it says. -/
theorem RuntimeCoordinator.state_rejectCandidate :
    (c.rejectCandidate lease).state.standing =
        (if c.state.standing = some lease then none else c.state.standing) ∧
      (c.rejectCandidate lease).state.holder = c.state.holder ∧
      ((c.rejectCandidate lease).state.Ownerless ↔ c.state.Ownerless) := by
  rw [rejectCandidate]
  split
  · next owns =>
    -- an owner is no candidate
    have held := isOwner_iff.mp owns
    cases found : c.state with
    | active owner current => simp [CoordinatorState.standing]
    | _ => simp [found, CoordinatorState.holder] at held
  · cases found : c.state with
    | candidate waiting =>
      by_cases same : waiting = lease
      · simp [CoordinatorState.standing, CoordinatorState.holder, CoordinatorState.Ownerless, same]
      · simp [CoordinatorState.standing, found, same]
    | replacing previousOwner reason waiting =>
      cases waiting with
      | none => simp [CoordinatorState.standing, found]
      | some waiting =>
        by_cases same : waiting = lease
        · simp [CoordinatorState.standing, CoordinatorState.holder, CoordinatorState.Ownerless, same]
        · simp [CoordinatorState.standing, found, same]
    | _ => simp [CoordinatorState.standing, found]

/-- A rejected factory becomes a satellite, unless it is the owner. -/
theorem RuntimeCoordinator.leases_rejectCandidate :
    (c.rejectCandidate lease).leases =
      if c.isOwner lease then c.leases
      else Function.update c.leases lease (some .satellite) := by
  rw [rejectCandidate]
  split
  · rfl
  · split
    · split <;> rfl
    · split <;> rfl
    · rfl

@[simp] theorem RuntimeCoordinator.created_rejectCandidate :
    (c.rejectCandidate lease).created = c.created := by
  rw [rejectCandidate]
  split
  · rfl
  · split
    · split <;> rfl
    · split <;> rfl
    · rfl

@[simp] theorem RuntimeCoordinator.created_acquireFactory :
    c.acquireFactory.1.created = c.created + 1 := by
  rw [acquireFactory]
  split <;> rfl

/-- A fresh lease is the candidate where the runtime has neither an owner nor a candidate. -/
theorem RuntimeCoordinator.state_acquireFactory :
    c.acquireFactory.1.state.standing =
        (if c.state.Ownerless ∧ c.state.standing = none then some c.created
          else c.state.standing) ∧
      c.acquireFactory.1.state.holder = c.state.holder ∧
      (c.acquireFactory.1.state.Ownerless ↔ c.state.Ownerless) := by
  cases found : c.state with
  | replacing previousOwner reason waiting =>
    cases waiting <;> simp [acquireFactory, found, CoordinatorState.standing,
      CoordinatorState.holder, CoordinatorState.Ownerless]
  | _ => simp [acquireFactory, found, CoordinatorState.standing, CoordinatorState.holder,
      CoordinatorState.Ownerless]

/-- A new factory is a candidate only where nobody stands or owns. -/
theorem RuntimeCoordinator.leases_acquireFactory :
    c.acquireFactory.1.leases = Function.update c.leases c.created
      (some (if c.state.Ownerless ∧ c.state.standing = none then .candidate else .satellite)) := by
  cases found : c.state with
  | replacing previousOwner reason waiting =>
    cases waiting <;> simp [acquireFactory, found, setLease, setState, CoordinatorState.standing,
      CoordinatorState.Ownerless]
  | _ => simp [acquireFactory, found, setLease, setState, CoordinatorState.standing,
      CoordinatorState.Ownerless]

/-- A shutdown takes the runtime from its owner, and makes no lease a candidate. -/
theorem RuntimeCoordinator.state_beginShutdown (reason : SessionLifecycleReason) :
    (c.beginShutdown lease reason).1.state.standing = c.state.standing ∧
      (c.beginShutdown lease reason).1.state.holder =
        if c.isOwner lease then none else c.state.holder := by
  unfold beginShutdown
  split
  · next owns =>
    have held := isOwner_iff.mp owns
    cases found : c.state with
    | active owner current =>
      cases reason <;> simp [CoordinatorState.standing, CoordinatorState.holder]
    | _ => simp [found, CoordinatorState.holder] at held
  · exact ⟨rfl, rfl⟩

@[simp] theorem RuntimeCoordinator.leases_beginShutdown (reason : SessionLifecycleReason) :
    (c.beginShutdown lease reason).1.leases = c.leases := by
  unfold beginShutdown
  split
  · cases reason <;> rfl
  · rfl

@[simp] theorem RuntimeCoordinator.created_beginShutdown (reason : SessionLifecycleReason) :
    (c.beginShutdown lease reason).1.created = c.created := by
  unfold beginShutdown
  split
  · cases reason <;> rfl
  · rfl

/-- An activation is refused, is denied as a child, moves the owner to another session, or
grants the runtime to a candidate. -/
theorem RuntimeCoordinator.activate_cases :
    (∃ answer, answer ≠ .activated ∧ answer ≠ .denied .child ∧
        c.activate lease sessionId = (c, answer)) ∨
      (sessionId ∈ c.childSessionIds ∧
        c.activate lease sessionId = (c.rejectCandidate lease, .denied .child)) ∨
      (sessionId ∉ c.childSessionIds ∧ c.isOwner lease ∧
        c.activate lease sessionId = (c.setState (.active lease sessionId), .activated)) ∨
      sessionId ∉ c.childSessionIds ∧ c.leases lease = some .candidate ∧
        c.activate lease sessionId =
          ((c.setLease lease .owner).setState (.active lease sessionId), .activated) := by
  rw [activate]
  split
  · exact Or.inl ⟨_, (by nofun), (by nofun), rfl⟩
  · split
    · exact Or.inl ⟨_, (by nofun), (by nofun), rfl⟩
    · split
      · next child => exact Or.inr (Or.inl ⟨child, rfl⟩)
      · next child =>
        split
        · next owns => exact Or.inr (Or.inr (Or.inl ⟨child, owns, rfl⟩))
        · split
          · exact Or.inl ⟨_, (by nofun), (by nofun), rfl⟩
          · next candidate =>
            split
            · exact Or.inl ⟨_, (by nofun), (by nofun), rfl⟩
            · exact Or.inr (Or.inr (Or.inr ⟨child, not_not.mp candidate, rfl⟩))

/-- The lease that waits is granted the runtime for any session but a child's. -/
theorem RuntimeCoordinator.activate_of_standing
    (waits : c.state.standing = some lease) (candidate : c.leases lease = some .candidate)
    (root : sessionId ∉ c.childSessionIds) : (c.activate lease sessionId).2 = .activated := by
  cases found : c.state with
  | candidate waiting =>
    have same : waiting = lease := by simpa [found, CoordinatorState.standing] using waits
    simp [activate, found, root, isOwner, candidate, awaitsOther, same, CoordinatorState.holder]
  | replacing previousOwner reason waiting =>
    have same : waiting = some lease := by simpa [found, CoordinatorState.standing] using waits
    simp [activate, found, root, isOwner, candidate, awaitsOther, same, CoordinatorState.holder]
  | _ => simp [found, CoordinatorState.standing] at waits

@[simp] theorem RuntimeCoordinator.created_activate :
    (c.activate lease sessionId).1.created = c.created := by
  rcases c.activate_cases lease sessionId with ⟨answer, -, -, same⟩ | ⟨-, same⟩ | ⟨-, -, same⟩ |
    ⟨-, -, same⟩
  · rw [same]
  · rw [same, created_rejectCandidate]
  · rw [same, created_setState]
  · rw [same, created_setState, created_setLease]

/-- No activation makes a lease a candidate. -/
theorem RuntimeCoordinator.candidate_of_activate
    (candidate : (c.activate lease sessionId).1.leases other = some .candidate) :
    c.leases other = some .candidate := by
  have kept (disposition : LeaseDisposition) (lost : disposition ≠ .candidate)
      (after : Function.update c.leases lease (some disposition) other = some .candidate) :
      c.leases other = some .candidate := by
    by_cases same : other = lease
    · rw [same, Function.update_self] at after
      exact absurd (Option.some.inj after) lost
    · rwa [Function.update_of_ne same] at after
  rcases c.activate_cases lease sessionId with ⟨answer, -, -, same⟩ | ⟨-, same⟩ | ⟨-, -, same⟩ |
    ⟨-, -, same⟩
  · rwa [same] at candidate
  · rw [same, leases_rejectCandidate] at candidate
    split at candidate
    · exact candidate
    · exact kept .satellite (by nofun) candidate
  · rwa [same] at candidate
  · rw [same] at candidate
    exact kept .owner (by nofun) candidate

/-- The owner after an activation was the owner before, or a candidate. -/
theorem RuntimeCoordinator.holder_of_activate
    (held : (c.activate lease sessionId).1.state.holder = some other) :
    c.state.holder = some other ∨ c.leases other = some .candidate := by
  rcases c.activate_cases lease sessionId with ⟨answer, -, -, same⟩ | ⟨-, same⟩ | ⟨-, owns, same⟩ |
    ⟨-, candidate, same⟩
  · rw [same] at held
    exact Or.inl held
  · rw [same, (c.state_rejectCandidate lease).2.1] at held
    exact Or.inl held
  · rw [same] at held
    cases held
    exact Or.inl (isOwner_iff.mp owns)
  · rw [same] at held
    cases held
    exact Or.inr candidate

end Calls

/-- While a factory has the runtime none stands for it. -/
theorem CoordinatorState.standing_of_holder {state : CoordinatorState} {lease : FactoryLease}
    (held : state.holder = some lease) : state.standing = none ∧ ¬state.Ownerless := by
  cases state with
  | active owner current => exact ⟨rfl, id⟩
  | _ => cases held

/-! ## Leases that are classified for good -/

section Runs

variable {w w' : CoordinatorRun} {call : CoordinatorCall} {lease other : FactoryLease}

/-- The lease has been created and is no candidate. No call makes it one again. -/
def RuntimeCoordinator.Spent (c : RuntimeCoordinator) (lease : FactoryLease) : Prop :=
  lease < c.created ∧ c.leases lease ≠ some .candidate

variable {c : RuntimeCoordinator}

/-- A spent factory stays so when another one is created. -/
theorem RuntimeCoordinator.Spent.acquireFactory (spent : c.Spent lease) :
    c.acquireFactory.1.Spent lease := by
  refine ⟨?_, ?_⟩
  · rw [created_acquireFactory]
    exact Nat.lt_succ_of_lt spent.1
  · rw [leases_acquireFactory, Function.update_of_ne (Nat.ne_of_lt spent.1)]
    exact spent.2

/-- A spent factory stays so when a session starts in another one. -/
theorem RuntimeCoordinator.Spent.activate (spent : c.Spent lease) (sessionId : String) :
    (c.activate other sessionId).1.Spent lease := by
  refine ⟨?_, fun candidate => spent.2 (candidate_of_activate _ _ _ candidate)⟩
  rw [created_activate]
  exact spent.1

/-- A spent factory stays so when a session ends. -/
theorem RuntimeCoordinator.Spent.beginShutdown (spent : c.Spent lease)
    (reason : SessionLifecycleReason) : (c.beginShutdown other reason).1.Spent lease := by
  rw [Spent, created_beginShutdown, leases_beginShutdown]
  exact spent

/-- The run with another set of child sessions. -/
def CoordinatorRun.withChildren (w : CoordinatorRun) (childSessionIds : Finset String) :
    CoordinatorRun :=
  { w with coordinator := { w.coordinator with childSessionIds } }

/-- The calls, where the events of child sessions change the set of these only. -/
theorem CoordinatorRun.step_cases (taken : w.step call = some w') :
    w' = w.acquired ∨
      (∃ lease < w.coordinator.created, ∃ sessionId,
        call = .activate lease sessionId ∧ w' = w.started lease sessionId) ∨
      (∃ lease < w.coordinator.created, ∃ reason,
        call = .beginShutdown lease reason ∧ w' = w.shutDown lease reason) ∨
      ∃ childSessionIds, w' = w.withChildren childSessionIds := by
  cases call with
  | acquireFactory =>
    cases taken
    exact Or.inl rfl
  | activate lease sessionId =>
    rw [step] at taken
    obtain ⟨created, rfl⟩ := Machine.of_guard taken
    exact Or.inr (Or.inl ⟨lease, created, sessionId, rfl, rfl⟩)
  | beginShutdown lease reason =>
    rw [step] at taken
    obtain ⟨created, rfl⟩ := Machine.of_guard taken
    exact Or.inr (Or.inr (Or.inl ⟨lease, created, reason, rfl, rfl⟩))
  | childSessionCreated payload =>
    cases taken
    refine Or.inr (Or.inr (Or.inr ?_))
    unfold RuntimeCoordinator.onChildSessionCreated
    split
    · exact ⟨_, rfl⟩
    · exact ⟨w.coordinator.childSessionIds, rfl⟩
  | childDisposed payload =>
    cases taken
    refine Or.inr (Or.inr (Or.inr ?_))
    unfold RuntimeCoordinator.onChildDisposed
    split
    · exact ⟨_, rfl⟩
    · exact ⟨w.coordinator.childSessionIds, rfl⟩

/-- A spent factory stays so in every step. -/
theorem RuntimeCoordinator.Spent.step (spent : w.coordinator.Spent lease)
    (taken : w.step call = some w') : w'.coordinator.Spent lease := by
  rcases CoordinatorRun.step_cases taken with rfl | ⟨other, -, sessionId, -, rfl⟩ |
    ⟨other, -, reason, -, rfl⟩ | ⟨ids, rfl⟩
  · exact spent.acquireFactory
  · exact spent.activate sessionId
  · exact spent.beginShutdown reason
  · exact spent

/-- A lease that is neither a candidate nor the owner is not the owner after a call. -/
theorem CoordinatorRun.holder_step (spent : w.coordinator.Spent lease)
    (former : w.coordinator.state.holder ≠ some lease) (taken : w.step call = some w') :
    w'.coordinator.state.holder ≠ some lease := by
  rcases step_cases taken with rfl | ⟨other, -, sessionId, -, rfl⟩ |
    ⟨other, -, reason, -, rfl⟩ | ⟨ids, rfl⟩
  · exact fun held => former (w.coordinator.state_acquireFactory.2.1 ▸ held)
  · intro held
    rcases RuntimeCoordinator.holder_of_activate _ _ _ held with before | candidate
    · exact former before
    · exact spent.2 candidate
  · intro held
    rw [shutDown, (w.coordinator.state_beginShutdown other reason).2] at held
    split at held
    · cases held
    · exact former held
  · exact former

/-- A lease that has lost the runtime never has it again. -/
theorem CoordinatorRun.holder_run {ok : CoordinatorRun → CoordinatorCall → Prop}
    (run : coordinatorMachine.RunsTo ok w w') (spent : w.coordinator.Spent lease)
    (former : w.coordinator.state.holder ≠ some lease) :
    w'.coordinator.state.holder ≠ some lease := by
  have kept : w'.coordinator.Spent lease ∧ w'.coordinator.state.holder ≠ some lease := by
    refine run.invariant (I := fun v => v.coordinator.Spent lease ∧
      v.coordinator.state.holder ≠ some lease) ?_ ⟨spent, former⟩
    rintro v call v' ⟨spent, former⟩ - taken
    exact ⟨spent.step taken, holder_step spent former taken⟩
  exact kept.2

/-! ## Which leases wait -/

/-- What the dispositions and the history of a run have to do with the lease that waits. -/
structure CoordinatorRun.Classified (w : CoordinatorRun) : Prop where
  /-- Only created leases have a disposition. -/
  bounded : ∀ lease, w.coordinator.created ≤ lease → w.coordinator.leases lease = none
  /-- The candidate is the lease that the state waits for. -/
  candidate : ∀ lease, w.coordinator.leases lease = some .candidate ↔
    w.coordinator.state.standing = some lease
  /-- Leases that were acquired beside a candidate or denied as children wait no longer. -/
  spent : ∀ lease, lease ∈ w.contended ∨ lease ∈ w.refused → w.coordinator.Spent lease
  /-- While the runtime has no owner, every other lease of the interval waits. -/
  waits : w.coordinator.state.Ownerless → ∀ lease, w.since ≤ lease →
    lease < w.coordinator.created → lease ∉ w.contended → lease ∉ w.refused →
    w.coordinator.state.standing = some lease

/-- The factory that has the runtime is no candidate any more. -/
theorem CoordinatorRun.Classified.holder_spent (classified : w.Classified)
    (held : w.coordinator.state.holder = some lease) :
    w.coordinator.leases lease ≠ some .candidate := by
  intro candidate
  have waits := (classified.candidate lease).mp candidate
  rw [(CoordinatorState.standing_of_holder held).1] at waits
  cases waits

/-- A new factory is classified. -/
theorem CoordinatorRun.Classified.acquired (classified : w.Classified) :
    w.acquired.Classified := by
  obtain ⟨standing, -, ownerless⟩ := w.coordinator.state_acquireFactory
  have leases := w.coordinator.leases_acquireFactory
  have created := w.coordinator.created_acquireFactory
  have fresh := classified.bounded w.coordinator.created (Nat.le_refl _)
  -- the fresh lease is not known yet, so it cannot be the one that waits
  have apart : w.coordinator.state.standing ≠ some w.coordinator.created := by
    intro waits
    rw [(classified.candidate _).mpr waits] at fresh
    cases fresh
  constructor
  case bounded =>
    intro lease beyond
    change w.coordinator.acquireFactory.1.created ≤ lease at beyond
    change w.coordinator.acquireFactory.1.leases lease = none
    rw [created] at beyond
    rw [leases, Function.update_of_ne (Nat.ne_of_gt beyond)]
    exact classified.bounded lease (Nat.le_of_succ_le beyond)
  case candidate =>
    intro lease
    change w.coordinator.acquireFactory.1.leases lease = _ ↔
      w.coordinator.acquireFactory.1.state.standing = _
    rw [leases, standing]
    -- the fresh lease becomes the candidate only where nobody owns and nobody waits
    by_cases vacant : w.coordinator.state.Ownerless ∧ w.coordinator.state.standing = none
    · rw [if_pos vacant, if_pos vacant]
      by_cases same : lease = w.coordinator.created
      · rw [same, Function.update_self]
        exact ⟨fun _ => rfl, fun _ => rfl⟩
      · rw [Function.update_of_ne same, classified.candidate, vacant.2]
        exact ⟨nofun, fun waits => absurd (Option.some.inj waits).symm same⟩
    · rw [if_neg vacant, if_neg vacant]
      by_cases same : lease = w.coordinator.created
      · rw [same, Function.update_self]
        exact ⟨nofun, fun waits => absurd waits apart⟩
      · rw [Function.update_of_ne same]
        exact classified.candidate lease
  case spent =>
    intro lease mem
    -- where another lease waits, the fresh one is spent at once
    have fresh (contended : w.coordinator.state.standing.isSome) :
        w.coordinator.acquireFactory.1.Spent w.coordinator.created := by
      refine ⟨by rw [created]; exact Nat.lt_succ_self _, ?_⟩
      have taken : ¬(w.coordinator.state.Ownerless ∧ w.coordinator.state.standing = none) := by
        rintro ⟨-, none⟩
        rw [none] at contended
        cases contended
      rw [leases, Function.update_self, if_neg taken]
      nofun
    rcases mem with contended | refused
    · simp only [CoordinatorRun.acquired] at contended
      split at contended
      · next waits =>
        rcases List.mem_cons.mp contended with rfl | contended
        · exact fresh waits
        · exact (classified.spent lease (Or.inl contended)).acquireFactory
      · exact (classified.spent lease (Or.inl contended)).acquireFactory
    · exact (classified.spent lease (Or.inr refused)).acquireFactory
  case waits =>
    intro free lease within known uncontended accepted
    change w.coordinator.acquireFactory.1.state.Ownerless at free
    change lease < w.coordinator.acquireFactory.1.created at known
    change w.coordinator.acquireFactory.1.state.standing = _
    rw [ownerless] at free
    rw [created] at known
    rw [standing]
    simp only [CoordinatorRun.acquired] at uncontended
    rcases Nat.lt_succ_iff_lt_or_eq.mp known with known | rfl
    · -- an older lease that waits keeps the fresh one from waiting
      have uncontended : lease ∉ w.contended := by
        intro mem
        split at uncontended
        · exact uncontended (List.mem_cons_of_mem _ mem)
        · exact uncontended mem
      have waits := classified.waits free lease within known uncontended accepted
      have taken : ¬(w.coordinator.state.Ownerless ∧ w.coordinator.state.standing = none) := by
        rintro ⟨-, none⟩
        rw [none] at waits
        cases waits
      rw [if_neg taken]
      exact waits
    · split at uncontended
      · exact absurd List.mem_cons_self uncontended
      · next vacant =>
        rw [if_pos ⟨free, Option.not_isSome_iff_eq_none.mp vacant⟩]

/-- A candidate that is denied as a child waits no longer, and the others do as before. -/
theorem CoordinatorRun.Classified.rejected (classified : w.Classified)
    (known : lease < w.coordinator.created) :
    CoordinatorRun.Classified { w with
      coordinator := w.coordinator.rejectCandidate lease, refused := lease :: w.refused } := by
  obtain ⟨standing, -, ownerless⟩ := w.coordinator.state_rejectCandidate lease
  have leases := w.coordinator.leases_rejectCandidate lease
  have created := w.coordinator.created_rejectCandidate lease
  -- the rejected lease is no candidate any more, the others are as before
  have lost : (w.coordinator.rejectCandidate lease).leases lease ≠ some .candidate := by
    rw [leases]
    split
    · next owns => exact classified.holder_spent (RuntimeCoordinator.isOwner_iff.mp owns)
    · rw [Function.update_self]
      nofun
  have kept (other : FactoryLease) (differs : other ≠ lease) :
      (w.coordinator.rejectCandidate lease).leases other = w.coordinator.leases other := by
    rw [leases]
    split
    · rfl
    · exact Function.update_of_ne differs _ _
  constructor
  case bounded =>
    intro other beyond
    change (w.coordinator.rejectCandidate lease).created ≤ other at beyond
    rw [created] at beyond
    exact (kept other (Nat.ne_of_gt (Nat.lt_of_lt_of_le known beyond))).trans
      (classified.bounded other beyond)
  case candidate =>
    intro other
    change (w.coordinator.rejectCandidate lease).leases other = _ ↔
      (w.coordinator.rejectCandidate lease).state.standing = _
    rw [standing]
    by_cases same : other = lease
    · rw [same]
      refine ⟨fun candidate => absurd candidate lost, fun waits => ?_⟩
      split at waits
      · cases waits
      · next differs => exact absurd waits differs
    · rw [kept other same, classified.candidate]
      split
      · next waits =>
        rw [waits]
        exact ⟨fun other => absurd (Option.some.inj other).symm same, nofun⟩
      · exact Iff.rfl
  case spent =>
    intro other mem
    by_cases same : other = lease
    · rw [same]
      exact ⟨created.symm ▸ known, lost⟩
    · have before : w.coordinator.Spent other := by
        rcases mem with contended | refused
        · exact classified.spent other (Or.inl contended)
        · exact classified.spent other (Or.inr ((List.mem_cons.mp refused).resolve_left same))
      exact ⟨created.symm ▸ before.1, (kept other same).symm ▸ before.2⟩
  case waits =>
    intro free other within known uncontended accepted
    change other < (w.coordinator.rejectCandidate lease).created at known
    change (w.coordinator.rejectCandidate lease).state.standing = _
    rw [created] at known
    obtain ⟨differs, accepted⟩ := not_or.mp (List.mem_cons.not.mp accepted)
    have waits := classified.waits (ownerless.mp free) other within known uncontended accepted
    -- a lease that waits uncontended was not the rejected one
    have apart : w.coordinator.state.standing ≠ some lease := by
      rw [waits]
      exact fun same => differs (Option.some.inj same)
    rw [standing, if_neg apart]
    exact waits

/-- The runtime that has gone to a lease leaves no candidate. -/
theorem CoordinatorRun.Classified.granted (classified : w.Classified) {sessionId : String}
    (state : c.state = .active lease sessionId) (created : c.created = w.coordinator.created)
    (kept : ∀ other, other ≠ lease → c.leases other = w.coordinator.leases other)
    (owner : c.leases lease ≠ some .candidate) (known : lease < w.coordinator.created)
    (alone : ∀ other, w.coordinator.leases other = some .candidate → other = lease) :
    CoordinatorRun.Classified { w with coordinator := c } := by
  have none (other : FactoryLease) : c.leases other ≠ some .candidate := by
    by_cases same : other = lease
    · rw [same]
      exact owner
    · rw [kept other same]
      exact fun candidate => same (alone other candidate)
  constructor
  case bounded =>
    intro other beyond
    change c.created ≤ other at beyond
    rw [created] at beyond
    exact (kept other (Nat.ne_of_gt (Nat.lt_of_lt_of_le known beyond))).trans
      (classified.bounded other beyond)
  case candidate =>
    intro other
    change c.leases other = _ ↔ c.state.standing = _
    rw [state]
    exact ⟨fun candidate => absurd candidate (none other), nofun⟩
  case spent =>
    intro other mem
    exact ⟨created.symm ▸ (classified.spent other mem).1, none other⟩
  case waits =>
    intro free
    change c.state.Ownerless at free
    rw [state] at free
    exact free.elim

/-- A session start keeps the factories classified. -/
theorem CoordinatorRun.Classified.started (classified : w.Classified)
    (known : lease < w.coordinator.created) (sessionId : String) :
    (w.started lease sessionId).Classified := by
  rcases w.coordinator.activate_cases lease sessionId with ⟨answer, -, accepted, same⟩ |
    ⟨-, same⟩ | ⟨-, owns, same⟩ | ⟨-, candidate, same⟩
  · rw [CoordinatorRun.started, same, if_neg accepted]
    exact classified
  · rw [CoordinatorRun.started, same, if_pos rfl]
    exact classified.rejected known
  · rw [CoordinatorRun.started, same, if_neg nofun]
    have held := RuntimeCoordinator.isOwner_iff.mp owns
    refine classified.granted rfl rfl (fun _ _ => rfl) (classified.holder_spent held) known
      fun other candidate => ?_
    have waits := (classified.candidate other).mp candidate
    rw [(CoordinatorState.standing_of_holder held).1] at waits
    cases waits
  · rw [CoordinatorRun.started, same, if_neg nofun]
    refine classified.granted rfl rfl
      (fun other differs => RuntimeCoordinator.leases_setLease_of_ne differs .owner) ?_ known
      fun other also => ?_
    · change (w.coordinator.setLease lease .owner).leases lease ≠ _
      rw [RuntimeCoordinator.leases_setLease_self]
      nofun
    · have waits := (classified.candidate lease).mp candidate
      rw [(classified.candidate other).mp also] at waits
      exact Option.some.inj waits

/-- The end of a session keeps the factories classified. -/
theorem CoordinatorRun.Classified.shutDown (classified : w.Classified)
    (reason : SessionLifecycleReason) : (w.shutDown lease reason).Classified := by
  have standing := (w.coordinator.state_beginShutdown lease reason).1
  have leases := w.coordinator.leases_beginShutdown lease reason
  have created := w.coordinator.created_beginShutdown lease reason
  constructor
  case bounded =>
    intro other beyond
    change (w.coordinator.beginShutdown lease reason).1.created ≤ other at beyond
    change (w.coordinator.beginShutdown lease reason).1.leases other = none
    rw [created] at beyond
    rw [leases]
    exact classified.bounded other beyond
  case candidate =>
    intro other
    change (w.coordinator.beginShutdown lease reason).1.leases other = _ ↔
      (w.coordinator.beginShutdown lease reason).1.state.standing = _
    rw [leases, standing]
    exact classified.candidate other
  case spent =>
    intro other mem
    exact (classified.spent other mem).beginShutdown reason
  case waits =>
    intro free other within known uncontended accepted
    change _ < (w.coordinator.beginShutdown lease reason).1.created at known
    rw [created] at known
    simp only [CoordinatorRun.shutDown] at free within
    split at within
    · -- the interval that begins here has no lease yet
      exact absurd known (Nat.not_lt.mpr within)
    · next other' =>
      have same : (w.coordinator.beginShutdown lease reason).1 = w.coordinator := by
        unfold RuntimeCoordinator.beginShutdown
        rw [if_neg other']
      rw [same] at free
      change (w.coordinator.beginShutdown lease reason).1.state.standing = _
      rw [standing]
      exact classified.waits free other within known uncontended accepted

/-- Every step keeps the factories classified. -/
theorem CoordinatorRun.Classified.step (classified : w.Classified)
    (taken : w.step call = some w') : w'.Classified := by
  rcases step_cases taken with rfl | ⟨lease, known, sessionId, -, rfl⟩ |
    ⟨lease, -, reason, -, rfl⟩ | ⟨ids, rfl⟩
  · exact classified.acquired
  · exact classified.started known sessionId
  · exact classified.shutDown reason
  · exact { classified with }

/-- The factories are classified in every run. -/
theorem classified_of_reachable (reached : coordinatorMachine.Reachable w) : w.Classified := by
  refine reached.invariant ?_ fun v call v' classified _ taken => classified.step taken
  rintro v rfl
  constructor
  case bounded => exact fun _ _ => rfl
  case candidate => exact fun _ => ⟨nofun, nofun⟩
  case spent => exact fun _ mem => absurd mem (by simp)
  case waits => exact fun _ _ _ known => absurd known (Nat.not_lt_zero _)

/-! ## The guarantees -/

/-- In every run: no activation grants the runtime to a session that is a child at that moment,
only a shutdown by the owner ends its ownership, and after that the former owner never has the
runtime again. While the runtime has no owner, a lease that is due is granted it if and only if
it was not acquired beside a candidate and has not been denied as a child itself. -/
theorem activation_granted_iff (reached : coordinatorMachine.Reachable w) :
    (∀ lease sessionId, sessionId ∈ w.coordinator.childSessionIds →
      (w.coordinator.activate lease sessionId).2 ≠ .activated) ∧
    (∀ lease reason owner sessionId, w.coordinator.state = .active owner sessionId →
      (w.coordinator.beginShutdown lease reason).1.state ≠ .active owner sessionId →
      lease = owner) ∧
    (∀ lease reason w' w'', w.coordinator.isOwner lease = true →
      coordinatorMachine.step w (.beginShutdown lease reason) = some w' →
      coordinatorMachine.RunsTo Always w' w'' → w''.coordinator.isOwner lease = false) ∧
    ∀ lease sessionId, w.Due lease → sessionId ∉ w.coordinator.childSessionIds →
      ((w.coordinator.activate lease sessionId).2 = .activated ↔
        lease ∉ w.contended ∧ lease ∉ w.refused) := by
  have classified := classified_of_reachable reached
  refine ⟨?_, ?_, ?_, ?_⟩
  · intro lease sessionId child
    rcases w.coordinator.activate_cases lease sessionId with ⟨answer, refused, -, same⟩ |
      ⟨-, same⟩ | ⟨root, -⟩ | ⟨root, -⟩
    · rw [same]
      exact refused
    · rw [same]
      nofun
    · exact absurd child root
    · exact absurd child root
  · intro lease reason owner sessionId active left
    by_cases owns : w.coordinator.isOwner lease = true
    · have held := RuntimeCoordinator.isOwner_iff.mp owns
      rw [active] at held
      exact (Option.some.inj held).symm
    · unfold RuntimeCoordinator.beginShutdown at left
      rw [if_neg owns] at left
      exact absurd active left
  · intro lease reason w' w'' owns taken run
    have held := RuntimeCoordinator.isOwner_iff.mp owns
    change CoordinatorRun.step w (.beginShutdown lease reason) = some w' at taken
    rw [CoordinatorRun.step] at taken
    obtain ⟨known, rfl⟩ := Machine.of_guard taken
    have spent : w.coordinator.Spent lease := ⟨known, classified.holder_spent held⟩
    have former : (w.coordinator.beginShutdown lease reason).1.state.holder ≠ some lease := by
      rw [(w.coordinator.state_beginShutdown lease reason).2, if_pos owns]
      nofun
    have never := CoordinatorRun.holder_run run (spent.beginShutdown reason) former
    exact Bool.eq_false_iff.mpr fun owns => never (RuntimeCoordinator.isOwner_iff.mp owns)
  · intro lease sessionId due root
    obtain ⟨free, within, known, -⟩ := due
    constructor
    · intro granted
      -- a lease without the runtime is granted it as a candidate only
      have candidate : w.coordinator.leases lease = some .candidate := by
        rcases w.coordinator.activate_cases lease sessionId with ⟨answer, refused, -, same⟩ |
          ⟨child, -⟩ | ⟨-, owns, -⟩ | ⟨-, candidate, -⟩
        · rw [same] at granted
          exact absurd granted refused
        · exact absurd child root
        · have held := RuntimeCoordinator.isOwner_iff.mp owns
          exact absurd free (CoordinatorState.standing_of_holder held).2
        · exact candidate
      exact ⟨fun mem => (classified.spent lease (Or.inl mem)).2 candidate,
        fun mem => (classified.spent lease (Or.inr mem)).2 candidate⟩
    · rintro ⟨uncontended, accepted⟩
      have waits := classified.waits free lease within known uncontended accepted
      exact w.coordinator.activate_of_standing lease sessionId waits
        ((classified.candidate lease).mpr waits) root

end Runs

/-- A fresh coordinator. -/
def unusedCoordinator : CoordinatorRun := ⟨⟨.unowned, fun _ => none, ∅, 0⟩, 0, [], []⟩

/-- The payload of an event about the session of a child. -/
def childPayload (sessionId : String) : Json := .object [("sessionId", .string sessionId)]

/-- Lease `0` is denied as a child before lease `1` is acquired for the session of the user. -/
def childBeforeRoot : List CoordinatorCall :=
  [.acquireFactory, .childSessionCreated (childPayload "child"), .activate 0 "child",
    .acquireFactory]

/-- A child starts before the root session, which is activated when it is due. -/
theorem activation_granted_iff_child_before_root :
    ∃ w, coordinatorMachine.Reachable w ∧ w.Due 1 ∧
      (w.coordinator.activate 1 "root").2 = .activated := by
  have ran : (coordinatorMachine.exec unusedCoordinator childBeforeRoot).any (fun w =>
      decide (w.Due 1 ∧ "root" ∉ w.coordinator.childSessionIds ∧ 1 ∉ w.contended ∧
        1 ∉ w.refused)) = true := by decide +kernel
  obtain ⟨w, executed, facts⟩ := (Option.any_eq_true _ _).mp ran
  obtain ⟨due, root, uncontended, accepted⟩ := of_decide_eq_true facts
  have reached : coordinatorMachine.Reachable w := reachable_of_exec rfl executed
  obtain ⟨-, -, -, granted⟩ := activation_granted_iff reached
  exact ⟨w, reached, due, (granted 1 "root" due root).mpr ⟨uncontended, accepted⟩⟩

/-- Both leases are acquired before lease `0` turns out to be a child's. -/
def childBesideRoot : List CoordinatorCall :=
  [.acquireFactory, .acquireFactory, .childSessionCreated (childPayload "child"),
    .activate 0 "child"]

/-- The lease of the user's session is acquired beside the lease of a child. The child is denied,
and so is the user's session, although no lease is left that could have the runtime. -/
theorem exists_real_session_denied :
    ∃ w, coordinatorMachine.Reachable w ∧ w.Due 1 ∧ "root" ∉ w.coordinator.childSessionIds ∧
      (w.coordinator.activate 1 "root").2 = .denied .satellite := by
  have ran : (coordinatorMachine.exec unusedCoordinator childBesideRoot).any (fun w =>
      decide (w.Due 1 ∧ "root" ∉ w.coordinator.childSessionIds ∧
        (w.coordinator.activate 1 "root").2 = .denied .satellite)) = true := by decide +kernel
  obtain ⟨w, executed, facts⟩ := (Option.any_eq_true _ _).mp ran
  have reached : coordinatorMachine.Reachable w := reachable_of_exec rfl executed
  exact ⟨w, reached, of_decide_eq_true facts⟩

end OutpostPi.Pi
