import Mathlib.Algebra.Ring.Nat
import Mathlib.Data.Int.DivMod
import Mathlib.Logic.Function.Basic
import OutpostPi.Lib.Machine

/-!
# Rollback floors of the mesh sync service

`MeshSyncService` pulls the owner-signed blob from the relay and publishes new ones. For each
Owner it persists the highest version that it has seen, and an operation reads that mark before
it goes to the network (`loadWatermarkContext`). What the service commits is serialised in a
queue: the context that is loaded, the preparation and the acknowledgement of a publication, and
the application of a blob, which keeps the queue busy while it saves the mark and writes the cache
(`Running`).

Everything else interleaves. A pull or a publication is a `Flight`, which goes on from one `await`
to the next (`resume`); the Owner, the local mutations and the relay act in between. The pull and
the second attempt after a conflict are a pull and a publication of their own.

The hash of an Owner key stands for the key. `signed` lists what the Owners have signed, on this
device and on others: a signature verifies when it is in the list.
-/

set_option autoImplicit false

namespace OutpostPi.App.MeshSync

open OutpostPi.Lib

/-- The key of an Owner. -/
abbrev OwnerPk := List UInt8

/-! ## State -/

/-- The rollback floor that the service keeps in memory. -/
structure WatermarkContext where
  ownerPk : OwnerPk
  highWatermark : Int
  deriving DecidableEq

/-- What makes an operation current. -/
inductive Currency
  | pull (mutationRevision : Nat) (allowPendingMutation : Bool)
  | publication
  deriving DecidableEq

/-- What a call is for, as it was when the call began. -/
structure Task where
  ownerPk : OwnerPk
  currency : Currency
  deriving DecidableEq

/-- Why a mark is saved: to apply a blob, or to take an acknowledgement. -/
inductive AfterSave
  | apply (stated : Int)
  | acknowledge
  deriving DecidableEq

/-- The operation that keeps the queue busy. -/
inductive Running
  | saving (task : Task) (version : Int) (after : AfterSave)
  | saved (task : Task) (version : Int) (after : AfterSave)
  | replacing (task : Task) (version : Int) (stated : Int)
  deriving DecidableEq

/-- The task of an operation of the queue. -/
def Running.task : Running → Task
  | .saving task _ _ | .saved task _ _ | .replacing task _ _ => task

/-- The version that an operation of the queue is about. -/
def Running.version : Running → Int
  | .saving _ version _ | .saved _ version _ | .replacing _ version _ => version

/-- The mark is persisted, and the operation has not gone on yet. -/
def Running.isSaved : Running → Bool
  | .saved _ _ _ => true
  | .saving _ _ _ | .replacing _ _ _ => false

/-- Where an operation waits. -/
inductive Stage
  | loading
  | reading
  | read (loaded : Int)
  | committing (loaded : Int)
  | loaded (highWatermark : Int)
  | fetching (highWatermark : Int)
  | verifying (highWatermark : Int) (blob : OwnerPk × Int) (stated : Int)
  | applying (highWatermark : Int) (version : Int) (stated : Int)
  | pulled (stated : Int)
  | preparing (highWatermark : Int)
  | prepared (highWatermark : Int) (nextVersion : Int)
  | signing (highWatermark : Int)
  | posting (highWatermark : Int)
  | acknowledging (highWatermark : Int) (stated : Int)
  deriving DecidableEq

/-- The rollback floor that an operation holds, once it has read the mark and before the queue has
taken it up for the last time. -/
def Stage.floor? : Stage → Option Int
  | .loading | .reading | .pulled _ => none
  | .read floor | .committing floor | .loaded floor | .fetching floor | .verifying floor _ _
  | .applying floor _ _ | .preparing floor | .prepared floor _ | .signing floor | .posting floor
  | .acknowledging floor _ => some floor

/-- A call in progress. -/
structure Flight where
  task : Task
  stage : Stage
  deriving DecidableEq

/-- What all operations share. -/
structure Shared where
  identity : Option OwnerPk
  transitionPending : Bool
  cleaned : Bool
  disposed : Bool
  mutationRevision : Nat
  mutationPending : Bool
  lastVersion : Int
  watermarkContext : Option WatermarkContext
  running : Option Running
  persisted : OwnerPk → Int
  signed : List (OwnerPk × Int)

/-- The service with its calls. -/
structure Service where
  shared : Shared
  flights : List Flight

namespace Shared

/-- No Owner is current while its replacement is pending. -/
def currentOwnerPk (s : Shared) : Option OwnerPk :=
  if s.transitionPending then none else s.identity

/-- The service runs for that Owner. -/
def IsOwnerCurrent (s : Shared) (expectedOwnerPk : OwnerPk) : Prop :=
  s.disposed = false ∧ s.currentOwnerPk = some expectedOwnerPk

/-- A pull may go on. -/
def IsPullCurrent (s : Shared) (mutationRevision : Nat) (allowPendingMutation : Bool)
    (expectedOwnerPk : OwnerPk) : Prop :=
  mutationRevision = s.mutationRevision ∧
    (allowPendingMutation = true ∨ s.mutationPending = false) ∧ s.IsOwnerCurrent expectedOwnerPk

/-- A call may go on. -/
def IsCurrent (s : Shared) (task : Task) : Prop :=
  match task.currency with
  | .pull mutationRevision allowPendingMutation =>
    s.IsPullCurrent mutationRevision allowPendingMutation task.ownerPk
  | .publication => s.IsOwnerCurrent task.ownerPk

instance (s : Shared) (ownerPk : OwnerPk) : Decidable (s.IsOwnerCurrent ownerPk) :=
  inferInstanceAs (Decidable (_ ∧ _))

instance (s : Shared) (mutationRevision : Nat) (allowPendingMutation : Bool)
    (ownerPk : OwnerPk) :
    Decidable (s.IsPullCurrent mutationRevision allowPendingMutation ownerPk) :=
  inferInstanceAs (Decidable (_ ∧ _ ∧ _))

instance (s : Shared) (task : Task) : Decidable (s.IsCurrent task) :=
  match task with
  | ⟨ownerPk, .pull mutationRevision allowPendingMutation⟩ =>
    inferInstanceAs (Decidable (s.IsPullCurrent mutationRevision allowPendingMutation ownerPk))
  | ⟨ownerPk, .publication⟩ => inferInstanceAs (Decidable (s.IsOwnerCurrent ownerPk))

theorem IsCurrent.isOwnerCurrent {s : Shared} {task : Task} (current : s.IsCurrent task) :
    s.IsOwnerCurrent task.ownerPk := by
  rw [IsCurrent] at current
  split at current
  · exact current.2.2
  · exact current

/-- The higher of an operation's floor and the active one, if that is for the same Owner. -/
def latestMark (s : Shared) (ownerPk : OwnerPk) (highWatermark : Int) : Int :=
  match s.watermarkContext with
  | none => highWatermark
  | some active =>
    if active.ownerPk ≠ ownerPk then highWatermark
    else if highWatermark < active.highWatermark then active.highWatermark else highWatermark

/-- Persist a mark. A mark is never lowered. -/
def saveMeshHighWatermark (s : Shared) (ownerPk : OwnerPk) (version : Int) : Shared :=
  if version ≤ s.persisted ownerPk then s
  else { s with persisted := Function.update s.persisted ownerPk version }

/-! ## Operations -/

/-- What the relay answers to a fetch: a blob with the version that the reply states, or nothing
to apply (304, 404 and failures). -/
inductive FetchResult
  | ok (blob : OwnerPk × Int) (version : Int)
  | nothing
  deriving DecidableEq

/-- How an `await` ends. -/
inductive Outcome
  | done
  | throws
  | fetched (result : FetchResult)
  | published (version : Option Int)
  deriving DecidableEq

/-- The next version, a 64-bit integer. -/
def nextVersion (s : Shared) (highWatermark : Int) : Int :=
  (max s.lastVersion highWatermark + 1).bmod (2 ^ 64)

/-- Go on with an operation after an `await`. An operation of the queue waits until the queue is
free. -/
def resume (s : Shared) (task : Task) : Stage → Outcome → Option (Shared × Option Stage)
  | .loading, .done => some (s, if s.IsCurrent task then some .reading else none)
  | .reading, .done => some (s, some (.read (s.persisted task.ownerPk)))
  | .reading, .throws => some (s, none)
  | .read loaded, .done =>
    some (s,
      if s.IsCurrent task then
        match s.watermarkContext with
        | none => some (.committing loaded)
        | some snapshot =>
          if snapshot.ownerPk = task.ownerPk ∧ loaded ≤ snapshot.highWatermark then
            some (.loaded snapshot.highWatermark)
          else some (.committing loaded)
      else none)
  | .committing loaded, .done =>
    if s.running.isSome then none
    else if s.IsCurrent task then
      let mark := s.latestMark task.ownerPk loaded
      some ({ s with watermarkContext := some ⟨task.ownerPk, mark⟩ }, some (.loaded mark))
    else some (s, none)
  | .loaded highWatermark, .done =>
    some (s,
      if s.IsCurrent task then
        match task.currency with
        | .pull _ _ => some (.fetching highWatermark)
        | .publication => some (.preparing highWatermark)
      else none)
  | .fetching highWatermark, .fetched result =>
    some (s,
      if s.IsCurrent task then
        match result with
        | .ok blob version => some (.verifying highWatermark blob version)
        | .nothing => none
      else none)
  | .verifying highWatermark blob stated, .done =>
    some (s,
      if blob ∈ s.signed ∧ blob.1 = task.ownerPk ∧ s.IsCurrent task then
        some (.applying highWatermark blob.2 stated)
      else none)
  | .applying highWatermark version stated, .done =>
    if s.running.isSome then none
    else if s.IsCurrent task then
      let mark := s.latestMark task.ownerPk highWatermark
      if version < mark then some (s, none)
      else if mark < version then
        some ({ s with running := some (.saving task version (.apply stated)) }, none)
      else some ({ s with running := some (.replacing task version stated) }, none)
    else some (s, none)
  | .pulled stated, .done =>
    some (if s.IsCurrent task then { s with lastVersion := stated } else s, none)
  | .preparing highWatermark, .done =>
    if s.running.isSome then none
    else if s.IsCurrent task then
      let mark := s.latestMark task.ownerPk highWatermark
      some ({ s with watermarkContext := some ⟨task.ownerPk, mark⟩ },
        some (.prepared mark (s.nextVersion mark)))
    else some (s, none)
  | .preparing _, .throws => some (s, none)
  | .prepared highWatermark nextVersion, .done =>
    -- a blob whose version is not positive cannot be built
    if s.IsCurrent task ∧ 0 < nextVersion then
      some ({ s with signed := (task.ownerPk, nextVersion) :: s.signed },
        some (.signing highWatermark))
    else some (s, none)
  | .signing highWatermark, .done =>
    some (s, if s.IsCurrent task then some (.posting highWatermark) else none)
  | .posting highWatermark, .published version =>
    some (s,
      if s.IsCurrent task then version.map (Stage.acknowledging highWatermark) else none)
  | .acknowledging highWatermark stated, .done =>
    if s.running.isSome then none
    else if s.IsCurrent task then
      if s.latestMark task.ownerPk highWatermark < stated then
        some ({ s with running := some (.saving task stated .acknowledge) }, none)
      else some ({ s with lastVersion := max s.lastVersion stated }, none)
    else some (s, none)
  | _, _ => none

/-- Go on with the operation that keeps the queue busy. -/
def runQueue (s : Shared) : Running → Outcome → Option (Shared × Option Stage)
  | .saving task version after, .done =>
    some ({ s.saveMeshHighWatermark task.ownerPk version with
      running := some (.saved task version after) }, none)
  | .saving _ _ _, .throws => some ({ s with running := none }, none)
  | .saved task version after, .done =>
    if s.IsCurrent task then
      let marked := { s with watermarkContext := some ⟨task.ownerPk, version⟩ }
      match after with
      | .apply stated =>
        some ({ marked with running := some (.replacing task version stated) }, none)
      | .acknowledge =>
        some ({ marked with running := none, lastVersion := max s.lastVersion version }, none)
    else some ({ s with running := none }, none)
  | .replacing task _ stated, .done =>
    some ({ s with running := none }, if s.IsCurrent task then some (.pulled stated) else none)
  | .replacing _ _ _, .throws => some ({ s with running := none }, none)
  | _, _ => none

/-! ### What an operation can do -/

/-- What one step of an operation makes of the shared state and of the operation. -/
inductive Resumes (s : Shared) (task : Task) (stage : Stage) : Shared → Option Stage → Prop
  | ends : Resumes s task stage s none
  | moves (next : Stage)
      (floor : ∀ floor', next.floor? = some floor' →
        floor' = s.persisted task.ownerPk ∨ ∃ floor, stage.floor? = some floor ∧ floor ≤ floor')
      (genuine : ∀ floor version stated, next = .applying floor version stated →
        (task.ownerPk, version) ∈ s.signed) :
      Resumes s task stage s (some next)
  | loads (next : Stage) (floor : Int) (idle : s.running = none) (current : s.IsCurrent task)
      (held : stage.floor? = some floor)
      (kept : next.floor? = some (s.latestMark task.ownerPk floor))
      (early : ∀ floor version stated, next ≠ .applying floor version stated) :
      Resumes s task stage
        { s with watermarkContext := some ⟨task.ownerPk, s.latestMark task.ownerPk floor⟩ }
        (some next)
  | applies (running : Running) (floor version stated : Int) (idle : s.running = none)
      (current : s.IsCurrent task) (turn : stage = .applying floor version stated)
      (owner : running.task = task) (same : running.version = version)
      (unsaved : running.isSaved = false) (higher : s.latestMark task.ownerPk floor ≤ version) :
      Resumes s task stage { s with running := some running } none
  | acknowledges (floor stated : Int) (idle : s.running = none) (current : s.IsCurrent task)
      (turn : stage = .acknowledging floor stated)
      (higher : s.latestMark task.ownerPk floor < stated) :
      Resumes s task stage { s with running := some (.saving task stated .acknowledge) } none
  | takes (version : Int) (current : s.IsCurrent task)
      (turn : stage = .pulled version ∨
        ∃ floor stated, stage = .acknowledging floor stated ∧ version = max s.lastVersion stated) :
      Resumes s task stage { s with lastVersion := version } none
  | signs (floor version : Int) (held : stage.floor? = some floor) :
      Resumes s task stage { s with signed := (task.ownerPk, version) :: s.signed }
        (some (.signing floor))

variable {s s' : Shared} {task : Task} {stage : Stage} {outcome : Outcome} {next : Option Stage}

/-- An operation that goes on to a stage with the same floor. -/
theorem Resumes.keeps {floor : Int} {next : Stage} (held : stage.floor? = some floor)
    (kept : next.floor? = some floor)
    (early : ∀ floor version stated, next ≠ .applying floor version stated) :
    Resumes s task stage s (some next) := by
  refine .moves next ?_ fun floor version stated same => absurd same (early floor version stated)
  intro floor' same
  rw [kept, Option.some_inj] at same
  exact Or.inr ⟨floor, held, same ▸ Int.le_refl floor⟩

theorem resumes (resumed : s.resume task stage outcome = some (s', next)) :
    Resumes s task stage s' next := by
  cases stage <;> cases outcome <;>
    simp only [resume, reduceCtorEq, Option.some.injEq, Prod.mk.injEq] at resumed
  case loading.done =>
    obtain ⟨rfl, rfl⟩ := resumed
    split
    · exact .moves _ (fun _ none => nomatch none) fun _ _ _ same => nomatch same
    · exact .ends
  case reading.done =>
    obtain ⟨rfl, rfl⟩ := resumed
    refine .moves _ (fun floor' same => Or.inl ?_) fun _ _ _ same => nomatch same
    exact (Option.some_inj.mp same).symm
  case reading.throws =>
    obtain ⟨rfl, rfl⟩ := resumed
    exact .ends
  case read.done loaded =>
    obtain ⟨rfl, rfl⟩ := resumed
    split
    · split
      · exact .keeps rfl rfl fun _ _ _ same => nomatch same
      · next snapshot _ =>
        split
        · next fresh =>
          -- the active context, which is not lower, replaces what was read
          refine .moves _ (fun floor' same => Or.inr ⟨loaded, rfl, ?_⟩) fun _ _ _ same =>
            nomatch same
          exact Option.some_inj.mp same ▸ fresh.2
        · exact .keeps rfl rfl fun _ _ _ same => nomatch same
    · exact .ends
  case committing.done loaded =>
    split at resumed
    · cases resumed
    next free =>
    split at resumed
    · next current =>
      simp only [Option.some.injEq, Prod.mk.injEq] at resumed
      obtain ⟨rfl, rfl⟩ := resumed
      exact .loads _ loaded (Option.not_isSome_iff_eq_none.mp free) current rfl rfl
        fun _ _ _ same => nomatch same
    · cases resumed
      exact .ends
  case loaded.done floor =>
    obtain ⟨rfl, rfl⟩ := resumed
    split
    · split <;> exact .keeps rfl rfl fun _ _ _ same => nomatch same
    · exact .ends
  case fetching.fetched floor result =>
    obtain ⟨rfl, rfl⟩ := resumed
    split
    · split
      · exact .keeps rfl rfl fun _ _ _ same => nomatch same
      · exact .ends
    · exact .ends
  case verifying.done floor blob stated =>
    obtain ⟨rfl, rfl⟩ := resumed
    split
    · next verified =>
      refine .moves _ (fun floor' same => Or.inr ⟨floor, rfl, ?_⟩) ?_
      · exact Option.some_inj.mp same ▸ Int.le_refl floor
      · rintro _ _ _ same
        cases same
        rw [← verified.2.1]
        exact verified.1
    · exact .ends
  case applying.done floor version stated =>
    split at resumed
    · cases resumed
    next free =>
    have idle := Option.not_isSome_iff_eq_none.mp free
    split at resumed
    · next current =>
      split at resumed
      · cases resumed
        exact .ends
      next notLower =>
      have higher := Int.not_lt.mp notLower
      split at resumed
      · cases resumed
        exact .applies _ floor version stated idle current rfl rfl rfl rfl higher
      · cases resumed
        exact .applies _ floor version stated idle current rfl rfl rfl rfl higher
    · cases resumed
      exact .ends
  case pulled.done stated =>
    obtain ⟨taken, rfl⟩ := resumed
    split at taken
    · next current =>
      cases taken
      exact .takes stated current (Or.inl rfl)
    · cases taken
      exact .ends
  case preparing.done floor =>
    split at resumed
    · cases resumed
    next free =>
    split at resumed
    · next current =>
      simp only [Option.some.injEq, Prod.mk.injEq] at resumed
      obtain ⟨rfl, rfl⟩ := resumed
      exact .loads _ floor (Option.not_isSome_iff_eq_none.mp free) current rfl rfl
        fun _ _ _ same => nomatch same
    · cases resumed
      exact .ends
  case preparing.throws =>
    obtain ⟨rfl, rfl⟩ := resumed
    exact .ends
  case prepared.done floor version =>
    split at resumed
    · cases resumed
      exact .signs floor version rfl
    · cases resumed
      exact .ends
  case signing.done floor =>
    obtain ⟨rfl, rfl⟩ := resumed
    split
    · exact .keeps rfl rfl fun _ _ _ same => nomatch same
    · exact .ends
  case posting.published floor version =>
    obtain ⟨rfl, rfl⟩ := resumed
    split
    · cases version with
      | none => exact .ends
      | some stated => exact .keeps rfl rfl fun _ _ _ same => nomatch same
    · exact .ends
  case acknowledging.done floor stated =>
    split at resumed
    · cases resumed
    next free =>
    split at resumed
    · next current =>
      split at resumed
      · next higher =>
        cases resumed
        exact .acknowledges floor stated (Option.not_isSome_iff_eq_none.mp free) current rfl higher
      · cases resumed
        exact .takes _ current (Or.inr ⟨floor, stated, rfl, rfl⟩)
    · cases resumed
      exact .ends

/-- What one step of the operation in the queue makes of the shared state, and the operation that
it gives rise to. -/
inductive RunsQueue (s : Shared) (running : Running) : Shared → Option Stage → Prop
  | persists (task : Task) (version : Int) (after : AfterSave)
      (turn : running = .saving task version after) :
      RunsQueue s running
        { s.saveMeshHighWatermark task.ownerPk version with
          running := some (.saved task version after) } none
  | marks (task : Task) (version : Int) (after : AfterSave) (lastVersion : Int)
      (rest : Option Running) (turn : running = .saved task version after)
      (current : s.IsCurrent task)
      (kept : ∀ later ∈ rest, later.task = task ∧ later.version = version ∧
        later.isSaved = false)
      (counted : lastVersion = s.lastVersion ∨ lastVersion = max s.lastVersion version) :
      RunsQueue s running
        { s with
          watermarkContext := some ⟨task.ownerPk, version⟩
          running := rest
          lastVersion := lastVersion } none
  | frees (next : Option Stage) (stale : running.isSaved = true → ¬ s.IsCurrent running.task)
      (pulled : ∀ stage ∈ next, ∃ stated, stage = .pulled stated) :
      RunsQueue s running { s with running := none } next

theorem runsQueue {running : Running} (ran : s.runQueue running outcome = some (s', next)) :
    RunsQueue s running s' next := by
  cases running <;> cases outcome <;>
    simp only [runQueue, reduceCtorEq, Option.some.injEq, Prod.mk.injEq] at ran
  case saving.done task version after =>
    obtain ⟨rfl, rfl⟩ := ran
    exact .persists task version after rfl
  case saving.throws =>
    obtain ⟨rfl, rfl⟩ := ran
    exact .frees none (fun saved => nomatch saved) fun _ none => nomatch none
  case saved.done task version after =>
    split at ran
    · next current =>
      cases after with
      | apply stated =>
        cases ran
        refine .marks task version _ _ _ rfl current ?_ (Or.inl rfl)
        rintro _ ⟨⟩
        exact ⟨rfl, rfl, rfl⟩
      | acknowledge =>
        cases ran
        exact .marks task version _ _ none rfl current (fun _ none => nomatch none) (Or.inr rfl)
    · next stale =>
      cases ran
      exact .frees none (fun _ => stale) fun _ none => nomatch none
  case replacing.done task version stated =>
    obtain ⟨rfl, rfl⟩ := ran
    refine .frees _ (fun saved => nomatch saved) ?_
    intro stage present
    split at present
    · exact ⟨stated, (Option.some_inj.mp present).symm⟩
    · cases present
  case replacing.throws =>
    obtain ⟨rfl, rfl⟩ := ran
    exact .frees none (fun saved => nomatch saved) fun _ none => nomatch none

end Shared

/-! ## Steps -/

/-- What starts calls, and what they await. -/
inductive Label
  | pullOnDemand (allowPendingMutation : Bool)
  | publish
  | resume (i : Nat) (outcome : Shared.Outcome)
  | runQueue (outcome : Shared.Outcome)
  | publishAfterPeerMutation
  | mutationsPublished
  | boot (ownerPk : OwnerPk)
  | beginTransition
  | resetVersionWatermark
  | completePendingTransition (ownerPk : OwnerPk)
  | signElsewhere (ownerPk : OwnerPk) (version : Int)
  | dispose
  deriving DecidableEq

namespace Service

/-- A new operation of the current Owner. -/
def start (s : Service) (currency : Currency) : Service :=
  match s.shared.currentOwnerPk with
  | none => s
  | some ownerPk =>
    if s.shared.IsCurrent ⟨ownerPk, currency⟩ then
      { s with flights := s.flights ++ [⟨⟨ownerPk, currency⟩, .loading⟩] }
    else s

/-- One step of the service. -/
def step (s : Service) : Label → Option Service
  | .pullOnDemand allowPendingMutation =>
    some (s.start (.pull s.shared.mutationRevision allowPendingMutation))
  | .publish => some (s.start .publication)
  | .resume i outcome =>
    match s.flights[i]? with
    | none => none
    | some flight =>
      (s.shared.resume flight.task flight.stage outcome).map fun (shared, next) =>
        ⟨shared, s.flights.eraseIdx i ++ (next.map (Flight.mk flight.task)).toList⟩
  | .runQueue outcome =>
    match s.shared.running with
    | none => none
    | some running =>
      (s.shared.runQueue running outcome).map fun (shared, next) =>
        ⟨shared, s.flights ++ (next.map (Flight.mk running.task)).toList⟩
  | .publishAfterPeerMutation =>
    if s.shared.disposed then none
    else
      some { s with shared := { s.shared with
        mutationRevision := s.shared.mutationRevision + 1
        mutationPending := true } }
  | .mutationsPublished =>
    some { s with shared := { s.shared with mutationPending := false } }
  | .boot ownerPk =>
    if s.shared.identity = none ∧ s.shared.transitionPending = false then
      some { s with shared := { s.shared with identity := some ownerPk } }
    else none
  | .beginTransition =>
    if s.shared.transitionPending then none
    else
      some { s with shared := { s.shared with transitionPending := true, cleaned := false } }
  | .resetVersionWatermark =>
    if s.shared.transitionPending then
      some { s with shared := { s.shared with lastVersion := 0, cleaned := true } }
    else none
  | .completePendingTransition ownerPk =>
    if s.shared.transitionPending = true ∧ s.shared.cleaned = true then
      some { s with shared := { s.shared with
        transitionPending := false
        identity := some ownerPk } }
    else none
  | .signElsewhere ownerPk version =>
    if 0 < version then
      some { s with shared := { s.shared with signed := (ownerPk, version) :: s.shared.signed } }
    else none
  | .dispose =>
    some { s with shared := { s.shared with
      disposed := true
      mutationRevision := s.shared.mutationRevision + 1
      mutationPending := false } }

end Service

/-- The service at start-up, before an Owner is loaded. -/
structure Initial (s : Service) : Prop where
  flights : s.flights = []
  running : s.shared.running = none
  identity : s.shared.identity = none
  transition : s.shared.transitionPending = false
  watermark : s.shared.watermarkContext = none
  lastVersion : s.shared.lastVersion = 0
  persisted : ∀ ownerPk, s.shared.persisted ownerPk = 0 ∨
    (ownerPk, s.shared.persisted ownerPk) ∈ s.shared.signed

/-- Calls and the queue interleave freely. -/
def machine : Machine Service Label where
  Init := Initial
  step := Service.step

end OutpostPi.App.MeshSync
