import OutpostPi.Lib.Machine

/-!
# Publishing local mesh mutations

Every local mutation of the peers raises a revision and asks for a publication. One drain at a
time publishes until nothing is pending; a failure that may pass arms a timer, and one that will
not pass drops what is pending (`settle`). A publication reads the members before it goes to the
network, and once more after a conflict.

What is pending is never forgotten (`Upheld`), except by a failure that will not pass, which drops
mutations that came after the members were read. In runs without those (`Timely`), whenever
nothing is under way the last mutation was among the members that were last published, or among
those of a publication that failed for good (`mutations_published`).
-/

set_option autoImplicit false

namespace OutpostPi.App.MeshMutations

open OutpostPi.Lib

/-! ## State -/

/-- What the user has changed. -/
inductive PeerMutationKind
  | upsert
  | delete
  deriving DecidableEq

/-- What the relay answers to a publication. -/
inductive MeshPublishResult
  | ok
  | conflict
  | badRequest
  | forbidden
  | tooLarge
  | failure
  deriving DecidableEq

/-- The failures after which the drain gives up. -/
def MeshPublishResult.isPermanent : MeshPublishResult → Bool
  | .badRequest | .forbidden | .tooLarge => true
  | .ok | .conflict | .failure => false

/-- Where a publication waits. `readAt` is the revision at which it read the members; a result that
is absent is an exception. -/
inductive PublicationStage
  | loading
  | posting (readAt : Nat)
  | rebasing (rebaseRevision : Nat)
  | returned (result : Option MeshPublishResult) (readAt : Nat)
  deriving DecidableEq

/-- A publication, with the revision that its drain has noted; a direct one has none. -/
structure Publication where
  revision : Option Nat
  allowEmpty : Bool
  refetchOnConflict : Bool
  stage : PublicationStage
  deriving DecidableEq

/-- The mutation state of the service. The publication that is in flight is what `_publishing`
guards. The last two fields are history: when the members that were last published were read, and
those of the publications that failed for good. -/
structure Mutations where
  mutationRevision : Nat
  mutationPending : Bool
  pendingMutationKind : PeerMutationKind
  mutationDrainRunning : Bool
  mutationRetryTimer : Bool
  publication : Option Publication
  publishedAt : Nat
  rejectedAt : List Nat
  deriving DecidableEq

namespace Mutations

/-- Nothing is to be published. -/
def new : Mutations := ⟨0, false, .upsert, false, false, none, 0, []⟩

/-- A turn of the drain. -/
def drainTurn (s : Mutations) : Mutations :=
  { s with
    mutationDrainRunning := true
    publication := some
      { revision := some s.mutationRevision
        allowEmpty := s.pendingMutationKind = .delete
        refetchOnConflict := true
        stage := .loading } }

/-- Start a drain, unless nothing is pending or something is on its way. -/
def startMutationPublishDrain (s : Mutations) : Mutations :=
  if s.mutationPending = false ∨ s.publication.isSome = true ∨ s.mutationDrainRunning = true ∨
      s.mutationRetryTimer = true then s
  else s.drainTurn

/-- A change of the user is to be published. -/
def publishAfterPeerMutation (s : Mutations) (kind : PeerMutationKind) : Mutations :=
  startMutationPublishDrain
    { s with
      mutationRevision := s.mutationRevision + 1
      mutationPending := true
      pendingMutationKind := kind
      mutationRetryTimer := false }

/-- A direct publication, unless one is in flight. -/
def publish (s : Mutations) (allowEmpty : Bool) : Mutations :=
  if s.publication.isSome then s
  else
    { s with
      publication := some
        { revision := none
          allowEmpty := allowEmpty
          refetchOnConflict := true
          stage := .loading } }

/-- The timer fires. -/
def retry (s : Mutations) : Mutations :=
  startMutationPublishDrain { s with mutationRetryTimer := false }

/-! ## Publications -/

/-- How an `await` of a publication ends. -/
inductive Outcome
  | unavailable
  | read (refused : Bool)
  | answered (result : MeshPublishResult) (committed : Bool)
  | rebased (restored : Bool)
  | throws
  deriving DecidableEq

/-- What the history records of a result. -/
def record (s : Mutations) (result : MeshPublishResult) (readAt : Nat) : Mutations :=
  match result with
  | .ok => { s with publishedAt := readAt }
  | .badRequest | .forbidden | .tooLarge => { s with rejectedAt := readAt :: s.rejectedAt }
  | .conflict | .failure => s

/-- The relay has answered. An acknowledgement that cannot be committed is a failure, and a first
conflict leads to a rebase. -/
def answered (s : Mutations) (publication : Publication) (readAt : Nat) :
    MeshPublishResult → Bool → Mutations × PublicationStage
  | .ok, committed =>
    if committed then (s.record .ok readAt, .returned (some .ok) readAt)
    else (s, .returned (some .failure) 0)
  | .conflict, _ =>
    if publication.refetchOnConflict then (s, .rebasing s.mutationRevision)
    else (s, .returned (some .conflict) readAt)
  | .badRequest, _ => (s.record .badRequest readAt, .returned (some .badRequest) readAt)
  | .forbidden, _ => (s.record .forbidden readAt, .returned (some .forbidden) readAt)
  | .tooLarge, _ => (s.record .tooLarge readAt, .returned (some .tooLarge) readAt)
  | .failure, _ => (s, .returned (some .failure) readAt)

/-- One `await` of a publication. An empty member list, where none is expected, is a failure. -/
def publishOnce (s : Mutations) (publication : Publication) :
    PublicationStage → Outcome → Option (Mutations × PublicationStage)
  | .loading, .unavailable => some (s, .returned (some .failure) 0)
  | .loading, .read refused =>
    if refused then
      if publication.allowEmpty then none else some (s, .returned (some .failure) 0)
    else some (s, .posting s.mutationRevision)
  | .posting readAt, .answered result committed =>
    some (s.answered publication readAt result committed)
  | .rebasing rebaseRevision, .rebased restored =>
    if restored = true ∧ s.mutationRevision = rebaseRevision then some (s, .loading)
    else some (s, .returned (some .conflict) 0)
  | .loading, .throws | .posting _, .throws | .rebasing _, .throws => some (s, .returned none 0)
  | _, _ => none

/-- The publication in progress goes on after what it awaits. -/
def advance (s : Mutations) (outcome : Outcome) : Option Mutations :=
  match s.publication with
  | none => none
  | some publication =>
    (s.publishOnce publication publication.stage outcome).map fun (next, stage) =>
      { next with
        publication := some
          { publication with
            stage := stage
            -- the attempt after a rebase does not rebase again
            refetchOnConflict := publication.refetchOnConflict && stage != .loading } }

/-! ## Results -/

/-- Publish again after a while. -/
def scheduleMutationPublishRetry (s : Mutations) : Mutations :=
  if s.mutationPending = false ∨ s.mutationRetryTimer = true then s
  else { s with mutationRetryTimer := true }

/-- Give up what cannot be published. -/
def stopMutationPublishAfterPermanentFailure (s : Mutations) : Mutations :=
  { s with mutationPending := false, mutationRetryTimer := false }

/-- The drain ends. -/
def endDrain (s : Mutations) : Mutations :=
  let ended := { s with mutationDrainRunning := false }
  if s.mutationPending = true ∧ s.mutationRetryTimer = false then ended.startMutationPublishDrain
  else ended

/-- What the drain does with a result: after a success it goes on while something is pending. -/
def drainResult (s : Mutations) (revision : Nat) : Option MeshPublishResult → Mutations
  | some .ok =>
    let done := if revision = s.mutationRevision then { s with mutationPending := false } else s
    if done.mutationPending then done.drainTurn else done.endDrain
  | none | some .failure | some .conflict => s.scheduleMutationPublishRetry.endDrain
  | some .badRequest | some .forbidden | some .tooLarge =>
    s.stopMutationPublishAfterPermanentFailure.endDrain

/-- The publication has returned. -/
def settle (s : Mutations) : Option Mutations :=
  match s.publication with
  | some ⟨revision, _, _, .returned result _⟩ =>
    let landed := { s with publication := none }
    match revision with
    | none => some landed.startMutationPublishDrain
    | some revision => some (landed.drainResult revision result)
  | _ => none

end Mutations

/-! ## Runs -/

/-- What the user, the relay and the timer do. -/
inductive Label
  | mutate (kind : PeerMutationKind)
  | publish (allowEmpty : Bool)
  | pullOnDemand
  | retry
  | advance (outcome : Mutations.Outcome)
  | settle
  deriving DecidableEq

/-- One step of the service. -/
def step (s : Mutations) : Label → Option Mutations
  | .mutate kind => some (s.publishAfterPeerMutation kind)
  | .publish allowEmpty => some (s.publish allowEmpty)
  -- a pull gives way to what is pending
  | .pullOnDemand => some s.startMutationPublishDrain
  | .retry => if s.mutationRetryTimer then some s.retry else none
  | .advance outcome => s.advance outcome
  | .settle => s.settle

/-- Changes, publications and timers interleave freely. -/
def machine : Machine Mutations Label where
  Init s := s = .new
  step := step

/-- Nothing is under way. -/
def Quiescent (s : Mutations) : Prop :=
  s.mutationDrainRunning = false ∧ s.mutationRetryTimer = false ∧ s.publication = none

/-- The last mutation was among the members that were last published, or among those of a
publication that failed for good. -/
def Published (s : Mutations) : Prop :=
  s.publishedAt = s.mutationRevision ∨ s.mutationRevision ∈ s.rejectedAt

instance (s : Mutations) : Decidable (Quiescent s) := inferInstanceAs (Decidable (_ ∧ _ ∧ _))

instance (s : Mutations) : Decidable (Published s) := inferInstanceAs (Decidable (_ ∨ _))

/-- A publication of the drain that failed for good, when the members were read before the last
mutation. -/
def Publication.dropsMutation (publication : Publication) (mutationRevision : Nat) : Bool :=
  publication.revision.isSome &&
    match publication.stage with
    | .returned (some result) readAt => result.isPermanent && readAt != mutationRevision
    | _ => false

/-- No mutation comes between the reading of the members and a failure for good. -/
def Timely (s : Mutations) : Label → Prop
  | .settle => ∀ publication ∈ s.publication, publication.dropsMutation s.mutationRevision = false
  | _ => True

instance (s : Mutations) : (label : Label) → Decidable (Timely s label)
  | .settle => inferInstanceAs (Decidable (∀ publication ∈ s.publication, _))
  | .mutate _ | .publish _ | .pullOnDemand | .retry | .advance _ => isTrue trivial

/-! ## Invariant -/

/-- What is known of a publication at its stage. -/
def PublicationStage.Known (s : Mutations) (revision : Option Nat) : PublicationStage → Prop
  | .loading | .rebasing _ => True
  | .posting readAt =>
    (∀ noted ∈ revision, noted ≤ readAt) ∧ readAt ≤ s.mutationRevision ∧
      (s.mutationPending = false → readAt = s.mutationRevision)
  | .returned (some .ok) readAt =>
    (∀ noted ∈ revision, noted ≤ readAt) ∧ readAt ≤ s.mutationRevision ∧ s.publishedAt = readAt
  | .returned (some .badRequest) readAt | .returned (some .forbidden) readAt
  | .returned (some .tooLarge) readAt => readAt ∈ s.rejectedAt
  | .returned none _ | .returned (some .conflict) _ | .returned (some .failure) _ => True

/-- What holds between steps, apart from the drain being awake. -/
structure Sound (s : Mutations) : Prop where
  running : s.mutationDrainRunning = true ↔
    ∃ publication ∈ s.publication, publication.revision.isSome = true
  pending : s.mutationDrainRunning = true → s.mutationPending = true
  published : s.mutationPending = false → Published s
  noted : ∀ publication ∈ s.publication, ∀ revision ∈ publication.revision,
    revision ≤ s.mutationRevision
  known : ∀ publication ∈ s.publication, publication.stage.Known s publication.revision

/-- What is pending is being seen to. -/
def Awake (s : Mutations) : Prop :=
  s.mutationPending = true →
    s.mutationDrainRunning = true ∨ s.mutationRetryTimer = true ∨ s.publication.isSome = true

/-- The flags say what is in progress, and what is pending is not left alone. -/
structure Upheld (s : Mutations) : Prop where
  sound : Sound s
  awake : Awake s

variable {s s' : Mutations}

/-- A new turn of the drain, when there is something pending and nothing in flight. -/
theorem sound_drainTurn (pending : s.mutationPending = true) : Sound s.drainTurn := by
  refine ⟨⟨fun _ => ⟨_, rfl, rfl⟩, fun _ => rfl⟩, fun _ => pending, ?_, ?_, ?_⟩
  · intro settled
    change s.mutationPending = false at settled
    rw [pending] at settled
    cases settled
  · rintro _ ⟨⟩ _ ⟨⟩
    exact Nat.le_refl _
  · rintro _ ⟨⟩
    trivial

theorem Sound.start (sound : Sound s) : Upheld s.startMutationPublishDrain := by
  rw [Mutations.startMutationPublishDrain]
  split
  · next held =>
    refine ⟨sound, fun pending => ?_⟩
    rcases held with settled | inFlight | running | armed
    · rw [pending] at settled
      cases settled
    · exact Or.inr (Or.inr inFlight)
    · exact Or.inl running
    · exact Or.inr (Or.inl armed)
  · next free =>
    simp only [not_or, Bool.not_eq_false] at free
    exact ⟨sound_drainTurn free.1, fun _ => Or.inl rfl⟩

theorem Sound.mutate (sound : Sound s) (kind : PeerMutationKind) :
    Upheld (s.publishAfterPeerMutation kind) := by
  apply Sound.start
  refine ⟨sound.running, fun _ => rfl, fun settled => absurd settled nofun, ?_, ?_⟩
  · intro publication inFlight revision noted
    exact Nat.le_succ_of_le (sound.noted publication inFlight revision noted)
  · intro publication inFlight
    have known := sound.known publication inFlight
    -- a new mutation makes no reading of the members wrong, only older
    revert known
    cases publication.stage with
    | loading => exact id
    | rebasing _ => exact id
    | posting readAt =>
      rintro ⟨noted, before, -⟩
      exact ⟨noted, Nat.le_succ_of_le before, fun settled => nomatch settled⟩
    | returned result readAt =>
      cases result with
      | none => exact id
      | some result =>
        cases result with
        | ok =>
          rintro ⟨noted, before, published⟩
          exact ⟨noted, Nat.le_succ_of_le before, published⟩
        | conflict => exact id
        | badRequest => exact id
        | forbidden => exact id
        | tooLarge => exact id
        | failure => exact id

theorem Upheld.publish (upheld : Upheld s) (allowEmpty : Bool) : Upheld (s.publish allowEmpty) := by
  rw [Mutations.publish]
  split
  · exact upheld
  · next idle =>
    have absent := Option.not_isSome_iff_eq_none.mp idle
    have stopped : s.mutationDrainRunning ≠ true := by
      intro running
      obtain ⟨publication, inFlight, -⟩ := upheld.sound.running.mp running
      rw [absent] at inFlight
      cases inFlight
    refine ⟨⟨?_, upheld.sound.pending, upheld.sound.published, ?_, ?_⟩, fun _ => ?_⟩
    · refine iff_of_false stopped ?_
      rintro ⟨_, ⟨⟩, noted⟩
      cases noted
    · rintro _ ⟨⟩ _ ⟨⟩
    · rintro _ ⟨⟩
      trivial
    · exact Or.inr (Or.inr rfl)

theorem Sound.retry (sound : Sound s) : Upheld s.retry := by
  apply Sound.start
  exact { sound with }

/-- A publication that goes on, with what is recorded of it. -/
theorem Upheld.proceed (upheld : Upheld s) {publication : Publication} {next : Mutations}
    (inFlight : s.publication = some publication) (stage : PublicationStage) (refetch : Bool)
    (same : ∃ publishedAt rejectedAt, next =
      { s with publishedAt := publishedAt, rejectedAt := rejectedAt })
    (published : s.mutationPending = false → Published next)
    (known : stage.Known next publication.revision) :
    Upheld { next with
      publication := some { publication with stage := stage, refetchOnConflict := refetch } } := by
  obtain ⟨publishedAt, rejectedAt, rfl⟩ := same
  refine ⟨⟨?_, upheld.sound.pending, published, ?_, ?_⟩, fun _ => Or.inr (Or.inr rfl)⟩
  · have running := upheld.sound.running
    simp only [inFlight, Option.mem_some_iff, exists_eq_left'] at running
    simpa only [Option.mem_some_iff, exists_eq_left'] using running
  · rintro _ ⟨⟩ revision noted
    exact upheld.sound.noted publication inFlight revision noted
  · rintro _ ⟨⟩
    cases stage with
    | loading => trivial
    | rebasing _ => trivial
    | posting readAt => exact known
    | returned result readAt =>
      cases result with
      | none => trivial
      | some result => cases result <;> exact known

theorem Upheld.advance (upheld : Upheld s) {outcome : Mutations.Outcome}
    (advanced : s.advance outcome = some s') : Upheld s' := by
  rw [Mutations.advance] at advanced
  split at advanced
  · cases advanced
  next publication inFlight =>
  obtain ⟨⟨next, stage⟩, went, rfl⟩ := Option.map_eq_some_iff.mp advanced
  have known := upheld.sound.known publication inFlight
  have noted := upheld.sound.noted publication inFlight
  have published := upheld.sound.published
  generalize waits : publication.stage = before at went known
  cases before <;> cases outcome <;>
    simp only [Mutations.publishOnce, reduceCtorEq, Option.some.injEq, Prod.mk.injEq] at went
  case loading.unavailable =>
    obtain ⟨rfl, rfl⟩ := went
    exact upheld.proceed inFlight _ _ ⟨_, _, rfl⟩ published trivial
  case loading.read refused =>
    split at went
    · split at went
      · cases went
      · cases went
        exact upheld.proceed inFlight _ _ ⟨_, _, rfl⟩ published trivial
    · cases went
      -- the members are read now
      exact upheld.proceed inFlight _ _ ⟨_, _, rfl⟩ published
        ⟨noted, Nat.le_refl _, fun _ => rfl⟩
  case loading.throws =>
    obtain ⟨rfl, rfl⟩ := went
    exact upheld.proceed inFlight _ _ ⟨_, _, rfl⟩ published trivial
  case posting.answered readAt result committed =>
    obtain ⟨notedBefore, before, settled⟩ := known
    have still (done : s.mutationPending = false) :
        Published { s with rejectedAt := readAt :: s.rejectedAt } :=
      (published done).imp_right (List.mem_cons_of_mem readAt)
    cases result with
    | ok =>
      rw [Mutations.answered] at went
      split at went
      · cases went
        exact upheld.proceed inFlight _ _ ⟨_, _, rfl⟩ (fun done => Or.inl (settled done))
          ⟨notedBefore, before, rfl⟩
      · cases went
        exact upheld.proceed inFlight _ _ ⟨_, _, rfl⟩ published trivial
    | conflict =>
      rw [Mutations.answered] at went
      split at went <;>
      · cases went
        exact upheld.proceed inFlight _ _ ⟨_, _, rfl⟩ published trivial
    | badRequest =>
      cases went
      exact upheld.proceed inFlight _ _ ⟨_, _, rfl⟩ still List.mem_cons_self
    | forbidden =>
      cases went
      exact upheld.proceed inFlight _ _ ⟨_, _, rfl⟩ still List.mem_cons_self
    | tooLarge =>
      cases went
      exact upheld.proceed inFlight _ _ ⟨_, _, rfl⟩ still List.mem_cons_self
    | failure =>
      cases went
      exact upheld.proceed inFlight _ _ ⟨_, _, rfl⟩ published trivial
  case posting.throws readAt =>
    obtain ⟨rfl, rfl⟩ := went
    exact upheld.proceed inFlight _ _ ⟨_, _, rfl⟩ published trivial
  case rebasing.rebased rebaseRevision restored =>
    split at went
    · cases went
      exact upheld.proceed inFlight _ _ ⟨_, _, rfl⟩ published trivial
    · cases went
      exact upheld.proceed inFlight _ _ ⟨_, _, rfl⟩ published trivial
  case rebasing.throws =>
    obtain ⟨rfl, rfl⟩ := went
    exact upheld.proceed inFlight _ _ ⟨_, _, rfl⟩ published trivial

/-! ## Results -/

/-- When nothing is in flight and the drain does not run, the state is sound as soon as everything
is published or pending. -/
theorem sound_of_idle (idle : s.publication = none) (stopped : s.mutationDrainRunning = false)
    (published : s.mutationPending = false → Published s) : Sound s := by
  refine ⟨?_, ?_, published, ?_, ?_⟩
  · rw [stopped, idle]
    refine iff_of_false Bool.false_ne_true ?_
    rintro ⟨_, absent, -⟩
    cases absent
  · rw [stopped]
    exact fun running => nomatch running
  · rw [idle]
    exact fun _ none => nomatch none
  · rw [idle]
    exact fun _ none => nomatch none

/-- The end of a drain with nothing in flight. -/
theorem upheld_endDrain (idle : s.publication = none)
    (published : s.mutationPending = false → Published s) : Upheld s.endDrain := by
  have sound : Sound { s with mutationDrainRunning := false } := sound_of_idle idle rfl published
  rw [Mutations.endDrain]
  split
  · exact sound.start
  · next ended =>
    refine ⟨sound, fun pending => Or.inr (Or.inl ?_)⟩
    exact Bool.not_eq_false _ |>.mp fun unarmed => ended ⟨pending, unarmed⟩

/-- A result of the drain: what it stops seeing to is published. -/
theorem upheld_drainResult (idle : s.publication = none) (pending : s.mutationPending = true)
    (revision : Nat) {result : Option MeshPublishResult}
    (published : result = some .ok → revision = s.mutationRevision → Published s)
    (rejected : ∀ given ∈ result, given.isPermanent = true → Published s) :
    Upheld (s.drainResult revision result) := by
  have retried : Upheld s.scheduleMutationPublishRetry.endDrain := by
    rw [Mutations.scheduleMutationPublishRetry]
    split
    · exact upheld_endDrain idle fun done => absurd (pending.symm.trans done) nofun
    · exact upheld_endDrain idle fun done => absurd (pending.symm.trans done) nofun
  have stopped (dropped : Published s) :
      Upheld s.stopMutationPublishAfterPermanentFailure.endDrain :=
    upheld_endDrain idle fun _ => dropped
  cases result with
  | none => exact retried
  | some result =>
    cases result with
    | ok =>
      rw [Mutations.drainResult]
      by_cases same : revision = s.mutationRevision
      · have ended : Upheld { s with mutationPending := false }.endDrain :=
          upheld_endDrain idle fun _ => published rfl same
        simpa only [if_pos same, Bool.false_eq_true, if_false] using ended
      · -- a mutation has come since, and the drain goes on
        have again : Upheld s.drainTurn := ⟨sound_drainTurn pending, fun _ => Or.inl rfl⟩
        simpa only [if_neg same, pending, if_true] using again
    | conflict => exact retried
    | badRequest => exact stopped (rejected _ rfl rfl)
    | forbidden => exact stopped (rejected _ rfl rfl)
    | tooLarge => exact stopped (rejected _ rfl rfl)
    | failure => exact retried

theorem Upheld.settle (upheld : Upheld s)
    (timely : ∀ publication ∈ s.publication,
      publication.dropsMutation s.mutationRevision = false)
    (settled : s.settle = some s') : Upheld s' := by
  rw [Mutations.settle] at settled
  split at settled
  · next revision allowEmpty refetch result readAt inFlight =>
    have known := upheld.sound.known _ inFlight
    have kept := timely _ inFlight
    have noted := upheld.sound.noted _ inFlight
    cases revision with
    -- a publication outside of the drain settles without it
    | none =>
      cases settled
      have stopped : s.mutationDrainRunning = false := by
        rw [← Bool.not_eq_true]
        intro running
        obtain ⟨publication, present, isNoted⟩ := upheld.sound.running.mp running
        obtain rfl := Option.some_inj.mp (inFlight.symm.trans present)
        cases isNoted
      have landed : Sound { s with publication := none } :=
        sound_of_idle rfl stopped upheld.sound.published
      exact landed.start
    -- a publication of the drain hands its result over
    | some revision =>
      cases settled
      have running : s.mutationDrainRunning = true :=
        upheld.sound.running.mpr ⟨_, inFlight, rfl⟩
      have pending := upheld.sound.pending running
      refine upheld_drainResult (s := { s with publication := none }) rfl pending revision ?_ ?_
      · -- the members were read after the drain noted the last mutation
        rintro rfl rfl
        obtain ⟨notedBefore, before, publishedAt⟩ := known
        exact Or.inl (publishedAt.trans (Nat.le_antisymm before (notedBefore _ rfl)))
      · rintro given ⟨⟩ permanent
        -- a result for good counts only for members that are still the last
        have readNow : readAt = s.mutationRevision := by
          simpa [Publication.dropsMutation, permanent] using kept
        right
        cases given with
        | badRequest => exact readNow ▸ known
        | forbidden => exact readNow ▸ known
        | tooLarge => exact readNow ▸ known
        | ok => cases permanent
        | conflict => cases permanent
        | failure => cases permanent
  · cases settled

/-- Timely steps keep everything published or seen to. -/
theorem Upheld.step {label : Label} (upheld : Upheld s) (timely : Timely s label)
    (taken : step s label = some s') : Upheld s' := by
  cases label with
  | mutate kind =>
    cases taken
    exact upheld.sound.mutate kind
  | publish allowEmpty =>
    cases taken
    exact upheld.publish allowEmpty
  | pullOnDemand =>
    cases taken
    exact upheld.sound.start
  | retry =>
    simp only [MeshMutations.step] at taken
    obtain ⟨_, rfl⟩ := Machine.of_guard taken
    exact upheld.sound.retry
  | advance outcome => exact upheld.advance taken
  | settle => exact upheld.settle timely taken

theorem upheld_new : Upheld .new := by
  refine ⟨sound_of_idle rfl rfl fun _ => Or.inl rfl, ?_⟩
  intro pending
  cases pending

/-- In a timely run, whenever nothing is under way the last mutation is published, or was refused
for good. -/
theorem mutations_published (reached : machine.ReachableUnder Timely s)
    (quiescent : Quiescent s) : Published s := by
  have upheld : Upheld s := by
    refine reached.invariant ?_ fun t label t' upheld timely taken => upheld.step timely taken
    rintro t rfl
    exact upheld_new
  obtain ⟨stopped, unarmed, idle⟩ := quiescent
  apply upheld.sound.published
  rw [← Bool.not_eq_true]
  intro pending
  rcases upheld.awake pending with running | armed | inFlight
  · rw [stopped] at running
    cases running
  · rw [unarmed] at armed
    cases armed
  · rw [idle] at inFlight
    cases inFlight

/-- A mutation that is published at once. -/
theorem mutations_published_once :
    ∃ s, machine.ReachableUnder Timely s ∧ s.mutationRevision = 1 ∧ Quiescent s ∧ Published s := by
  let schedule : List Label :=
    [.mutate .upsert, .advance (.read false), .advance (.answered .ok true), .settle]
  have ran : (machine.exec .new schedule).any (fun s =>
      decide (s.mutationRevision = 1) && decide (Quiescent s)) = true := by decide +kernel
  have meets : machine.Meets Timely .new schedule := by decide +kernel
  obtain ⟨s, executed, facts⟩ := (Option.any_eq_true _ _).mp ran
  obtain ⟨once, quiescent⟩ := Bool.and_eq_true_iff.mp facts
  have reached : machine.ReachableUnder Timely s :=
    ⟨.new, rfl, Machine.runsTo_of_exec meets executed⟩
  have idle := of_decide_eq_true quiescent
  exact ⟨s, reached, of_decide_eq_true once, idle, mutations_published reached idle⟩

/-- A peer is revoked while the publication of a pairing is on its way, and that publication is
refused for good. Nobody publishes the revocation. -/
theorem exists_mutation_dropped :
    ∃ s, machine.Reachable s ∧ Quiescent s ∧ s.mutationRevision = 2 ∧ s.publishedAt = 0 ∧
      s.rejectedAt = [1] := by
  let schedule : List Label :=
    [.mutate .upsert, .advance (.read false), .mutate .delete,
      .advance (.answered .badRequest true), .settle]
  have ran : (machine.exec .new schedule).any (fun s =>
      decide (Quiescent s) && decide (s.mutationRevision = 2 ∧ s.publishedAt = 0 ∧
        s.rejectedAt = [1])) = true := by decide +kernel
  obtain ⟨s, executed, facts⟩ := (Option.any_eq_true _ _).mp ran
  obtain ⟨quiescent, history⟩ := Bool.and_eq_true_iff.mp facts
  exact ⟨s, Machine.reachable_of_exec rfl executed, of_decide_eq_true quiescent,
    of_decide_eq_true history⟩

end OutpostPi.App.MeshMutations
