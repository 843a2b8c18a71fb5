import OutpostPi.Relay.MeshFreshness

/-!
# Authorization calls that fail

Any number of `is_authorized` calls over a store that does not change. A scan may fail to read the
store, and a call may be refused because too many scans are running. `Lookups` notes which scans
have failed, which cached entries come from such a scan, and what was answered to the calls that
neither failed nor were refused.

A failed scan is cached like an absence. In runs in which no call finds such an entry while it is
fresh, every definite answer is the one that the call would get without the calls that failed or
were refused; in runs in which no failed scan completes none is cached, and the slot of a scan is
always released (`lookups_unaffected`). Otherwise a failure answers later calls
(`exists_failure_answer`).
-/

set_option autoImplicit false

namespace OutpostPi.Relay

open OutpostPi.Lib

/-! ## The system -/

/-- The answer to a call that neither failed nor was refused. -/
structure Verdict where
  piA : String
  piB : String
  authorized : Bool
  deriving DecidableEq

/-- The cache and its calls, the calls whose last scan failed, the Pis whose entry was cached by
such a scan, and the definite answers. -/
structure Lookups where
  world : MeshWorld
  failed : Nat → Bool
  poisoned : String → Bool
  verdicts : List Verdict

inductive LookupAction
  | isAuthorized (index : Nat) (piA piB : String)
  | lookup (index now : Nat)
  | wake (index : Nat)
  | scan (index : Nat) (fails : Bool)
  | finish (index now : Nat) (oldest : String)
  deriving DecidableEq

def LookupAction.action : LookupAction → MeshAction
  | .isAuthorized index piA piB => .isAuthorized index piA piB
  | .lookup index now => .lookup index now
  | .wake index => .wake index
  | .scan index fails => .scan index fails
  | .finish index now oldest => .finish index now oldest

/-- The entry of a Pi that answers a call. -/
def MeshAuthCache.freshEntry (cache : MeshAuthCache) (piPk : String) (now : Nat) :
    Option CacheEntry :=
  (cache.entries.lookup piPk).filter fun entry => entry.isFresh now

/-- A call is refused where nothing is cached and too many scans are running. -/
def MeshAuthCache.refuses (cache : MeshAuthCache) (piPk : String) (now : Nat) : Bool :=
  (cache.freshEntry piPk now).isNone && !cache.inFlight.contains piPk &&
    decide (maxConcurrentMeshAuthScans ≤ cache.inFlight.length)

namespace Lookups

/-- The answer that a step has given. -/
def returned (before after : MeshWorld) : Option AuthAnswer := after.answers[before.answers.length]?

/-- A call returns from a cached entry, or from a scan that has read the store. -/
def definite (l : Lookups) : LookupAction → Bool
  | .lookup index now =>
    (l.world.calls index).any fun call => (l.world.cache.freshEntry call.piA now).isSome
  | .finish index _ _ => !l.failed index
  | _ => false

/-- The notes after a step that has led to a world. -/
def note (l : Lookups) (a : LookupAction) (w : MeshWorld) : Lookups where
  world := w
  failed :=
    match a with
    | .scan index fails => Function.update l.failed index fails
    | _ => l.failed
  poisoned :=
    match a, returned l.world w with
    | .finish index _ _, some answer =>
      Function.update l.poisoned answer.piA (l.failed index)
    | _, _ => l.poisoned
  verdicts :=
    match l.definite a, returned l.world w with
    | true, some answer => l.verdicts ++ [⟨answer.piA, answer.piB, answer.authorized⟩]
    | _, _ => l.verdicts

end Lookups

section System

variable (codec : MeshCodec)

/-- The entries say what a scan of the store would find. -/
def Truthful (store : MeshStore) (cache : MeshAuthCache) : Prop :=
  ∀ key entry, cache.entries.lookup key = some entry →
    entry.membership = MeshAuthCache.membershipOf (scanMembership codec key store.rows)

/-- No call is in progress, and the cache is truthful. -/
structure Lookups.Initial (l : Lookups) : Prop where
  calls : ∀ i, l.world.calls i = none
  inFlight : l.world.cache.inFlight = []
  answers : l.world.answers = []
  truthful : Truthful codec l.world.store l.world.cache
  failed : ∀ i, l.failed i = false
  poisoned : ∀ key, l.poisoned key = false
  verdicts : l.verdicts = []

/-- Any number of calls, of which some fail or are refused. -/
def lookups : Machine Lookups LookupAction where
  Init := Lookups.Initial codec
  step l a := ((meshMachine codec).step l.world a.action).map (l.note a)

end System

/-! ## Failures -/

/-- No scan fails, and no call is refused. -/
def Faultless (l : Lookups) : LookupAction → Prop
  | .scan _ fails => fails = false
  | .lookup index now =>
    ∀ call ∈ l.world.calls index, l.world.cache.refuses call.piA now = false
  | _ => True

/-- A scan that has failed does not complete. -/
def Uncached (l : Lookups) : LookupAction → Prop
  | .finish index _ _ => l.failed index = false
  | _ => True

/-- A call does not find a fresh entry that a failed scan has cached. -/
def Unread (l : Lookups) : LookupAction → Prop
  | .lookup index now =>
    ∀ call ∈ l.world.calls index, ∀ _ ∈ l.world.cache.freshEntry call.piA now,
      l.poisoned call.piA = false
  | _ => True

instance (l : Lookups) : (a : LookupAction) → Decidable (Unread l a)
  | .lookup index now =>
    inferInstanceAs (Decidable (∀ call ∈ l.world.calls index,
      ∀ _ ∈ l.world.cache.freshEntry call.piA now, l.poisoned call.piA = false))
  | .isAuthorized _ _ _ | .wake _ | .scan _ _ | .finish _ _ _ => isTrue trivial

/-- What a call would get over this store if no call failed or was refused. -/
def WouldReturn (codec : MeshCodec) (store : MeshStore) (piA piB : String) (authorized : Bool) :
    Prop :=
  (∃ l, (lookups codec).ReachableUnder Faultless l ∧ l.world.store = store ∧
    ⟨piA, piB, authorized⟩ ∈ l.verdicts) ∧
  ∀ l other, (lookups codec).ReachableUnder Faultless l → l.world.store = store →
    ⟨piA, piB, other⟩ ∈ l.verdicts → other = authorized

/-- A call is between its two critical sections. -/
def AuthStage.isScanning : AuthStage → Bool
  | .scanning _ => true
  | .scanned _ _ => true
  | _ => false

/-- The Pi that a call scans for. -/
def AuthCall.scansFor (call : AuthCall) : Option String :=
  if call.stage.isScanning then some call.piA else none

def MeshWorld.scansFor (w : MeshWorld) (i : Nat) : Option String :=
  (w.calls i).bind AuthCall.scansFor

/-- A Pi has a slot while a call scans for it, and one call at most does. -/
structure Slots (inFlight : List String) (scansFor : Nat → Option String) : Prop where
  held : ∀ piPk, piPk ∈ inFlight ↔ ∃ i, scansFor i = some piPk
  single : ∀ i j piPk, scansFor i = some piPk → scansFor j = some piPk → i = j
  nodup : inFlight.Nodup

def SlotsHeld (w : MeshWorld) : Prop := Slots w.cache.inFlight w.scansFor

/-! ## What a step does -/

/-- The cache without the stale entry of a Pi. -/
def MeshAuthCache.expire (cache : MeshAuthCache) (piPk : String) : MeshAuthCache :=
  { cache with entries := cache.entries.erase piPk }

/-- Whether the members that were found name the other Pi. -/
def authorizes (members : Option (List String)) (piB : String) : Bool :=
  match members with
  | some members => members.contains piB
  | none => false

/-- The answer of the store itself. -/
def storeAuthorizes (codec : MeshCodec) (store : MeshStore) (piA piB : String) : Bool :=
  authorizes ((scanMembership codec piA store.rows).map ScannedMembership.members) piB

@[simp] theorem members_membershipOf (membership : Option ScannedMembership) :
    (MeshAuthCache.membershipOf membership).members =
      membership.map ScannedMembership.members := by
  cases membership <;> rfl

/-- The steps of the system, with all that they change. -/
inductive Took (codec : MeshCodec) (l : Lookups) : LookupAction → Lookups → Prop
  | isAuthorized (index : Nat) (piA piB : String) (free : l.world.calls index = none) :
      Took codec l (.isAuthorized index piA piB)
        { l with world := l.world.setCall index ⟨piA, piB, .lookup, l.world.publishes, 0⟩ }
  | cached (index now : Nat) (call : AuthCall) (entry : CacheEntry)
      (here : l.world.calls index = some call) (stage : call.stage = .lookup)
      (found : l.world.cache.freshEntry call.piA now = some entry) :
      Took codec l (.lookup index now)
        { l with
          world := l.world.answer index call entry.membership.members
          verdicts := l.verdicts ++
            [⟨call.piA, call.piB, authorizes entry.membership.members call.piB⟩] }
  | waits (index now : Nat) (call : AuthCall) (here : l.world.calls index = some call)
      (stage : call.stage = .lookup) (inFlight : call.piA ∈ l.world.cache.inFlight) :
      Took codec l (.lookup index now)
        { l with
          world := { l.world with cache := l.world.cache.expire call.piA }.setCall index
            { call with stage := .waiting } }
  | refused (index now : Nat) (call : AuthCall) (here : l.world.calls index = some call)
      (stage : call.stage = .lookup) (refuses : l.world.cache.refuses call.piA now = true) :
      Took codec l (.lookup index now)
        { l with
          world := { l.world with cache := l.world.cache.expire call.piA }.answer index call none }
  | scans (index now : Nat) (call : AuthCall) (here : l.world.calls index = some call)
      (stage : call.stage = .lookup) (free : call.piA ∉ l.world.cache.inFlight) :
      Took codec l (.lookup index now)
        { l with
          world := { l.world with
            cache := { l.world.cache.expire call.piA with
              inFlight := l.world.cache.inFlight ++ [call.piA] } }.setCall index
            { call with
              stage := .scanning l.world.cache.generation
              admittedAt := l.world.invalidations } }
  | wake (index : Nat) (call : AuthCall) (here : l.world.calls index = some call)
      (stage : call.stage = .waiting) :
      Took codec l (.wake index)
        { l with world := l.world.setCall index { call with stage := .lookup } }
  | scan (index : Nat) (fails : Bool) (call : AuthCall) (generation : UInt64)
      (here : l.world.calls index = some call) (stage : call.stage = .scanning generation) :
      Took codec l (.scan index fails)
        { l with
          world := l.world.setCall index
            { call with
              stage := .scanned generation
                (if fails then none else scanMembership codec call.piA l.world.store.rows) }
          failed := Function.update l.failed index fails }
  | restarts (index now : Nat) (oldest : String) (call : AuthCall) (generation : UInt64)
      (membership : Option ScannedMembership) (here : l.world.calls index = some call)
      (stage : call.stage = .scanned generation membership)
      (moved : l.world.cache.generation ≠ generation) :
      Took codec l (.finish index now oldest)
        { l with
          world := { l.world with
            cache := { l.world.cache with
              inFlight := l.world.cache.inFlight.erase call.piA } }.setCall index
            { call with stage := .lookup } }
  | finished (index now : Nat) (oldest : String) (call : AuthCall) (generation : UInt64)
      (membership : Option ScannedMembership) (entries : Map String CacheEntry)
      (here : l.world.calls index = some call)
      (stage : call.stage = .scanned generation membership)
      (kept : ∀ key entry, entries.lookup key = some entry →
        l.world.cache.entries.lookup key = some entry) :
      Took codec l (.finish index now oldest)
        { l with
          world := { l.world with
            cache := { l.world.cache with
              inFlight := l.world.cache.inFlight.erase call.piA
              entries := entries.insert call.piA
                ⟨MeshAuthCache.membershipOf membership, now⟩ } }.answer index call
            (membership.map ScannedMembership.members)
          poisoned := Function.update l.poisoned call.piA (l.failed index)
          verdicts :=
            if l.failed index then l.verdicts
            else l.verdicts ++ [⟨call.piA, call.piB,
              authorizes (membership.map ScannedMembership.members) call.piB⟩] }

namespace Lookups

variable {codec : MeshCodec} {l l' : Lookups} {index now : Nat} {call : AuthCall}

@[simp] theorem returned_setCall (w w' : MeshWorld) (same : w'.answers = w.answers) :
    returned w (w'.setCall index call) = none := by
  simp [returned, MeshWorld.setCall, same]

@[simp] theorem returned_answer (w w' : MeshWorld) (same : w'.answers = w.answers)
    (members : Option (List String)) :
    returned w (w'.answer index call members) =
      some ⟨call.piA, call.piB, authorizes members call.piB, call.known⟩ := by
  cases members <;> simp [returned, MeshWorld.answer, same, authorizes]

/-- Nothing returns while a call goes on. -/
theorem note_setCall {a : LookupAction} {w' : MeshWorld} (same : w'.answers = l.world.answers) :
    l.note a (w'.setCall index call) =
      { l with
        world := w'.setCall index call
        failed :=
          match a with
          | .scan index fails => Function.update l.failed index fails
          | _ => l.failed } := by
  unfold note
  rw [returned_setCall _ _ same]
  cases l.definite a <;> cases a <;> rfl

/-- A call that returns without a scan is noted when a cached entry has answered it. -/
theorem note_answer_lookup {w' : MeshWorld} (here : l.world.calls index = some call)
    (same : w'.answers = l.world.answers) (members : Option (List String)) :
    l.note (.lookup index now) (w'.answer index call members) =
      { l with
        world := w'.answer index call members
        verdicts :=
          if (l.world.cache.freshEntry call.piA now).isSome then
            l.verdicts ++ [⟨call.piA, call.piB, authorizes members call.piB⟩]
          else l.verdicts } := by
  have definite : l.definite (.lookup index now) =
      (l.world.cache.freshEntry call.piA now).isSome := by
    rw [Lookups.definite, here, Option.any_some]
  unfold note
  rw [returned_answer _ _ same, definite]
  cases (l.world.cache.freshEntry call.piA now).isSome <;> rfl

theorem note_answer_finish {w' : MeshWorld} (same : w'.answers = l.world.answers)
    (members : Option (List String)) (oldest : String) :
    l.note (.finish index now oldest) (w'.answer index call members) =
      { l with
        world := w'.answer index call members
        poisoned := Function.update l.poisoned call.piA (l.failed index)
        verdicts :=
          if l.failed index then l.verdicts
          else l.verdicts ++ [⟨call.piA, call.piB, authorizes members call.piB⟩] } := by
  unfold note
  rw [returned_answer _ _ same, Lookups.definite]
  cases failed : l.failed index <;> simp [failed]

end Lookups

namespace MeshAuthCache

variable {cache : MeshAuthCache} {piPk : String} {now : Nat}

/-- A fresh entry answers a call. -/
theorem lookup_of_freshEntry {entry : CacheEntry}
    (found : cache.freshEntry piPk now = some entry) :
    cache.entries.lookup piPk = some entry ∧
      cache.lookup piPk now = (.answer entry.membership.members, cache) := by
  obtain ⟨cached, fresh⟩ := Option.filter_eq_some_iff.mp found
  refine ⟨cached, ?_⟩
  rw [lookup, cached]
  exact if_pos fresh

/-- Making room for an entry adds none. -/
theorem lookup_of_evict {oldest : String} {entries : Map String CacheEntry}
    (evicted : evict (Map.filter (fun _ entry => entry.isFresh now) cache.entries) piPk oldest =
      some entries) (key : String) (entry : CacheEntry) (found : entries.lookup key = some entry) :
    cache.entries.lookup key = some entry := by
  rw [evict] at evicted
  split at evicted
  · obtain ⟨_, rfl⟩ := Machine.of_guard evicted
    exact (Map.lookup_of_filter (Map.lookup_of_erase found)).1
  · cases evicted
    exact (Map.lookup_of_filter found).1

/-- Without a fresh entry a call misses the cache. -/
theorem lookup_of_freshEntry_none (missing : cache.freshEntry piPk now = none) :
    cache.lookup piPk now = cache.miss piPk := by
  rw [lookup]
  cases cached : cache.entries.lookup piPk with
  | none => rfl
  | some entry =>
    rw [freshEntry, cached, Option.filter_eq_none_iff] at missing
    exact if_neg (missing entry rfl)

end MeshAuthCache

namespace Took

variable {codec : MeshCodec} {l l' : Lookups} {index now : Nat} {call : AuthCall}

/-- What the first critical section of a call does. -/
theorem of_lookup {w' : MeshWorld} (here : l.world.calls index = some call)
    (taken : l.world.lookup index now call = some w') :
    Took codec l (.lookup index now) (l.note (.lookup index now) w') := by
  rw [MeshWorld.lookup] at taken
  split at taken
  case h_2 => cases taken
  case h_1 stage =>
  cases found : l.world.cache.freshEntry call.piA now with
  | some entry =>
    rw [(MeshAuthCache.lookup_of_freshEntry found).2] at taken
    cases taken
    rw [Lookups.note_answer_lookup here rfl, found]
    exact .cached index now call entry here stage found
  | none =>
    rw [MeshAuthCache.lookup_of_freshEntry_none found, MeshAuthCache.miss] at taken
    by_cases inFlight : call.piA ∈ l.world.cache.inFlight
    · rw [if_pos inFlight] at taken
      cases taken
      rw [Lookups.note_setCall]
      · exact .waits index now call here stage inFlight
      · rfl
    rw [if_neg inFlight] at taken
    by_cases full : maxConcurrentMeshAuthScans ≤ l.world.cache.inFlight.length
    · rw [if_pos full] at taken
      cases taken
      rw [Lookups.note_answer_lookup here, found]
      · refine .refused index now call here stage ?_
        simp [MeshAuthCache.refuses, found, inFlight, full]
      · rfl
    · rw [if_neg full] at taken
      cases taken
      rw [Lookups.note_setCall]
      · exact .scans index now call here stage inFlight
      · rfl

/-- What the second critical section of a call does. -/
theorem of_finish {w' : MeshWorld} {oldest : String} (here : l.world.calls index = some call)
    (taken : l.world.finish index now oldest call = some w') :
    Took codec l (.finish index now oldest) (l.note (.finish index now oldest) w') := by
  rw [MeshWorld.finish] at taken
  split at taken
  case h_2 => cases taken
  case h_1 generation membership stage =>
  obtain ⟨result, finished, rfl⟩ := Option.map_eq_some_iff.mp taken
  rw [MeshAuthCache.finish] at finished
  split at finished
  · next moved =>
    cases finished
    rw [Lookups.note_setCall]
    · exact .restarts index now oldest call generation membership here stage moved
    · rfl
  · obtain ⟨entries, evicted, rfl⟩ := Option.map_eq_some_iff.mp finished
    rw [Lookups.note_answer_finish]
    · refine .finished index now oldest call generation membership entries here stage ?_
      exact MeshAuthCache.lookup_of_evict evicted
    · rfl

/-- Every step is one of these. -/
theorem of_step {a : LookupAction} (taken : (lookups codec).step l a = some l') :
    Took codec l a l' := by
  obtain ⟨w', stepped, rfl⟩ := Option.map_eq_some_iff.mp taken
  cases a with
  | isAuthorized index piA piB =>
    simp only [LookupAction.action, meshMachine] at stepped
    split at stepped
    · next free =>
      cases stepped
      rw [Lookups.note_setCall]
      · exact .isAuthorized index piA piB free
      · rfl
    · cases stepped
  | lookup index now =>
    obtain ⟨call, here, stepped⟩ := Option.bind_eq_some_iff.mp stepped
    exact of_lookup here stepped
  | wake index =>
    obtain ⟨call, here, stepped⟩ := Option.bind_eq_some_iff.mp stepped
    split at stepped
    · next stage =>
      cases stepped
      rw [Lookups.note_setCall]
      · exact .wake index call here stage
      · rfl
    · cases stepped
  | scan index fails =>
    obtain ⟨call, here, stepped⟩ := Option.bind_eq_some_iff.mp stepped
    rw [MeshWorld.scan] at stepped
    split at stepped
    · next generation stage =>
      cases stepped
      rw [Lookups.note_setCall]
      · exact .scan index fails call generation here stage
      · rfl
    · cases stepped
  | finish index now oldest =>
    obtain ⟨call, here, stepped⟩ := Option.bind_eq_some_iff.mp stepped
    exact of_finish here stepped

end Took

/-! ## Slots -/

namespace Slots

variable {inFlight : List String} {scansFor : Nat → Option String} {index : Nat} {piPk : String}

/-- A call takes a slot for its scan. -/
theorem take (slots : Slots inFlight scansFor) (idle : scansFor index = none)
    (free : piPk ∉ inFlight) :
    Slots (inFlight ++ [piPk]) (Function.update scansFor index (some piPk)) := by
  have unscanned : ∀ i, scansFor i ≠ some piPk := by
    intro i scans
    exact free ((slots.held piPk).mpr ⟨i, scans⟩)
  constructor
  · intro other
    rw [List.mem_append, List.mem_singleton, slots.held]
    constructor
    · rintro (⟨i, scans⟩ | rfl)
      · refine ⟨i, ?_⟩
        rw [Function.update_of_ne, scans]
        rintro rfl
        cases idle.symm.trans scans
      · exact ⟨index, Function.update_self ..⟩
    · rintro ⟨i, scans⟩
      rcases of_update_eq_some scans with ⟨-, same⟩ | ⟨-, scans⟩
      · exact Or.inr (Option.some.inj same).symm
      · exact Or.inl ⟨i, scans⟩
  · intro i j other first second
    rcases of_update_eq_some first with ⟨isI, same⟩ | ⟨-, first⟩ <;>
      rcases of_update_eq_some second with ⟨isJ, same'⟩ | ⟨-, second⟩
    · exact isI.trans isJ.symm
    · exact absurd (second.trans same.symm) (unscanned j)
    · exact absurd (first.trans same'.symm) (unscanned i)
    · exact slots.single i j other first second
  · refine List.nodup_append.mpr ⟨slots.nodup, List.nodup_singleton piPk, ?_⟩
    rintro other mem _ here rfl
    exact free (List.mem_singleton.mp here ▸ mem)

/-- A call gives its slot back. -/
theorem release (slots : Slots inFlight scansFor) (scans : scansFor index = some piPk) :
    Slots (inFlight.erase piPk) (Function.update scansFor index none) := by
  constructor
  · intro other
    rw [slots.nodup.mem_erase_iff, slots.held]
    constructor
    · rintro ⟨differs, i, others⟩
      refine ⟨i, ?_⟩
      rw [Function.update_of_ne, others]
      rintro rfl
      exact differs (Option.some.inj (others.symm.trans scans))
    · rintro ⟨i, others⟩
      rcases of_update_eq_some others with ⟨-, impossible⟩ | ⟨elsewhere, others⟩
      · cases impossible
      · refine ⟨?_, i, others⟩
        rintro rfl
        exact elsewhere (slots.single i index other others scans)
  · intro i j other first second
    rcases of_update_eq_some first with ⟨-, impossible⟩ | ⟨-, first⟩
    · cases impossible
    · rcases of_update_eq_some second with ⟨-, impossible⟩ | ⟨-, second⟩
      · cases impossible
      · exact slots.single i j other first second
  · exact slots.nodup.erase piPk

end Slots

namespace SlotsHeld

variable {codec : MeshCodec} {l l' : Lookups} {w : MeshWorld} {index : Nat} {call : AuthCall}

theorem scansFor_setCall : (w.setCall index call).scansFor =
    Function.update w.scansFor index call.scansFor := by
  funext i
  rcases eq_or_ne i index with rfl | differs
  · simp [MeshWorld.scansFor, MeshWorld.setCall]
  · simp [MeshWorld.scansFor, MeshWorld.setCall, differs]

theorem scansFor_answer {members : Option (List String)} :
    (w.answer index call members).scansFor = Function.update w.scansFor index none := by
  funext i
  rcases eq_or_ne i index with rfl | differs
  · simp [MeshWorld.scansFor, MeshWorld.answer]
  · simp [MeshWorld.scansFor, MeshWorld.answer, differs]

theorem scansFor_of_calls (here : w.calls index = some call) :
    w.scansFor index = call.scansFor := by
  rw [MeshWorld.scansFor, here, Option.bind_some]

/-- A call that goes on with its scan keeps its slot. -/
theorem keep {cache : MeshAuthCache} (slots : SlotsHeld w)
    (same : cache.inFlight = w.cache.inFlight) (still : call.scansFor = w.scansFor index) :
    SlotsHeld ({ w with cache := cache }.setCall index call) := by
  rw [SlotsHeld, scansFor_setCall, still]
  change Slots cache.inFlight (Function.update w.scansFor index (w.scansFor index))
  rw [Function.update_eq_self, same]
  exact slots

/-- A call without a scan leaves without a slot. -/
theorem dismiss {cache : MeshAuthCache} {members : Option (List String)} (slots : SlotsHeld w)
    (same : cache.inFlight = w.cache.inFlight) (idle : w.scansFor index = none) :
    SlotsHeld ({ w with cache := cache }.answer index call members) := by
  rw [SlotsHeld, scansFor_answer, ← idle]
  change Slots cache.inFlight (Function.update w.scansFor index (w.scansFor index))
  rw [Function.update_eq_self, same]
  exact slots

/-- A slot is taken when a scan is admitted and released when it completes, whatever it has
found; no other step concerns the slots. -/
theorem step {a : LookupAction} (slots : SlotsHeld l.world) (took : Took codec l a l') :
    SlotsHeld l'.world := by
  cases took with
  | isAuthorized index piA piB free =>
    refine slots.keep rfl ?_
    rw [MeshWorld.scansFor, free]
    rfl
  | cached index now call entry here stage found =>
    refine slots.dismiss rfl ?_
    rw [scansFor_of_calls here, AuthCall.scansFor, stage]
    rfl
  | waits index now call here stage inFlight =>
    refine slots.keep rfl ?_
    rw [scansFor_of_calls here, AuthCall.scansFor, AuthCall.scansFor, stage]
    rfl
  | refused index now call here stage refuses =>
    refine slots.dismiss rfl ?_
    rw [scansFor_of_calls here, AuthCall.scansFor, stage]
    rfl
  | scans index now call here stage free =>
    have idle : l.world.scansFor index = none := by
      rw [scansFor_of_calls here, AuthCall.scansFor, stage]
      rfl
    rw [SlotsHeld, scansFor_setCall]
    exact slots.take idle free
  | wake index call here stage =>
    refine slots.keep rfl ?_
    rw [scansFor_of_calls here, AuthCall.scansFor, AuthCall.scansFor, stage]
    rfl
  | scan index fails call generation here stage =>
    refine slots.keep rfl ?_
    rw [scansFor_of_calls here, AuthCall.scansFor, AuthCall.scansFor, stage]
    rfl
  | restarts index now oldest call generation membership here stage moved =>
    have scans : l.world.scansFor index = some call.piA := by
      rw [scansFor_of_calls here, AuthCall.scansFor, stage]
      rfl
    rw [SlotsHeld, scansFor_setCall]
    exact slots.release scans
  | finished index now oldest call generation membership entries here stage kept =>
    have scans : l.world.scansFor index = some call.piA := by
      rw [scansFor_of_calls here, AuthCall.scansFor, stage]
      rfl
    rw [SlotsHeld, scansFor_answer]
    exact slots.release scans

end SlotsHeld

/-! ## Answers -/

/-- What a scan finds. -/
def scanResult (codec : MeshCodec) (store : MeshStore) (piPk : String) (fails : Bool) :
    Option ScannedMembership :=
  if fails then none else scanMembership codec piPk store.rows

/-- A call that is scanning holds the current generation, and what it has read. -/
structure ScansRead (codec : MeshCodec) (l : Lookups) : Prop where
  current : ∀ i (call : AuthCall) generation, l.world.calls i = some call →
    (call.stage = .scanning generation ∨
      ∃ membership, call.stage = .scanned generation membership) →
    l.world.cache.generation = generation
  scanned : ∀ i (call : AuthCall) generation membership, l.world.calls i = some call →
    call.stage = .scanned generation membership →
    membership = scanResult codec l.world.store call.piA (l.failed i)

namespace ScansRead

variable {codec : MeshCodec} {l l' : Lookups} {index : Nat} {call : AuthCall}

/-- A call that goes on without having read the store. -/
theorem setCall {cache : MeshAuthCache} (read : ScansRead codec l)
    (same : cache.generation = l.world.cache.generation)
    (unread : ∀ generation membership, call.stage ≠ .scanned generation membership)
    (current : ∀ generation, call.stage = .scanning generation →
      l.world.cache.generation = generation) :
    ScansRead codec { l with world := { l.world with cache := cache }.setCall index call } := by
  constructor
  · intro i other generation there stage
    refine same.trans ?_
    rcases of_update_eq_some there with ⟨-, is⟩ | ⟨-, there⟩
    · cases is
      rcases stage with stage | ⟨membership, stage⟩
      · exact current generation stage
      · exact absurd stage (unread generation membership)
    · exact read.current i other generation there stage
  · intro i other generation membership there stage
    rcases of_update_eq_some there with ⟨-, is⟩ | ⟨-, there⟩
    · cases is
      exact absurd stage (unread generation membership)
    · exact read.scanned i other generation membership there stage

/-- A call that returns. -/
theorem answer {cache : MeshAuthCache} {poisoned : String → Bool} {verdicts : List Verdict}
    {members : Option (List String)} (read : ScansRead codec l)
    (same : cache.generation = l.world.cache.generation) :
    ScansRead codec
      { l with
        world := { l.world with cache := cache }.answer index call members
        poisoned := poisoned
        verdicts := verdicts } := by
  constructor
  · intro i other generation there stage
    rcases of_update_eq_some there with ⟨-, impossible⟩ | ⟨-, there⟩
    · cases impossible
    · exact same.trans (read.current i other generation there stage)
  · intro i other generation membership there stage
    rcases of_update_eq_some there with ⟨-, impossible⟩ | ⟨-, there⟩
    · cases impossible
    · exact read.scanned i other generation membership there stage

theorem step {a : LookupAction} (read : ScansRead codec l) (took : Took codec l a l') :
    ScansRead codec l' := by
  cases took with
  | isAuthorized index piA piB free => exact read.setCall rfl nofun nofun
  | cached index now call entry here stage found => exact read.answer rfl
  | waits index now call here stage inFlight => exact read.setCall rfl nofun nofun
  | refused index now call here stage refuses => exact read.answer rfl
  | scans index now call here stage free =>
    refine read.setCall rfl nofun ?_
    rintro generation ⟨⟩
    rfl
  | wake index call here stage => exact read.setCall rfl nofun nofun
  | scan index fails call generation here stage =>
    have current := read.current index call generation here (Or.inl stage)
    constructor
    · intro i other generation' there stage'
      rcases of_update_eq_some there with ⟨-, is⟩ | ⟨-, there⟩
      · cases is
        obtain impossible | ⟨membership, is⟩ := stage'
        · cases impossible
        · cases is
          exact current
      · exact read.current i other generation' there stage'
    · intro i other generation' membership there stage'
      dsimp only
      rcases of_update_eq_some there with ⟨rfl, is⟩ | ⟨elsewhere, there⟩
      · cases is
        cases stage'
        rw [Function.update_self]
        rfl
      · rw [Function.update_of_ne elsewhere]
        exact read.scanned i other generation' membership there stage'
  | restarts index now oldest call generation membership here stage moved =>
    exact read.setCall rfl nofun nofun
  | finished index now oldest call generation membership entries here stage kept =>
    exact read.answer rfl

theorem init (initial : l.Initial codec) : ScansRead codec l := by
  constructor
  · intro i call generation there
    cases (initial.calls i).symm.trans there
  · intro i call generation membership there
    cases (initial.calls i).symm.trans there

/-- A failed scan that completes has found nothing, and its slot is free again. -/
theorem finish_failed {now : Nat} {oldest : String} (read : ScansRead codec l)
    (failed : l.failed index = true) (took : Took codec l (.finish index now oldest) l') :
    ∃ call, l.world.calls index = some call ∧
      l'.world.cache.inFlight = l.world.cache.inFlight.erase call.piA ∧
      l'.world.cache.entries.lookup call.piA = some ⟨.absent, now⟩ := by
  cases took with
  | restarts _ _ _ call generation membership here stage moved =>
    exact absurd (read.current index call generation here (Or.inr ⟨membership, stage⟩)) moved
  | finished _ _ _ call generation membership entries here stage kept =>
    refine ⟨call, here, rfl, ?_⟩
    have nothing : membership = none := by
      rw [read.scanned index call generation membership here stage, failed]
      rfl
    rw [nothing]
    exact AList.lookup_insert _

end ScansRead

/-- What no failure has left agrees with the store. -/
structure Faithful (codec : MeshCodec) (l : Lookups) : Prop extends ScansRead codec l where
  entries : ∀ key entry, l.world.cache.entries.lookup key = some entry →
    l.poisoned key = false →
    entry.membership = MeshAuthCache.membershipOf (scanMembership codec key l.world.store.rows)
  verdicts : ∀ verdict ∈ l.verdicts,
    verdict.authorized = storeAuthorizes codec l.world.store verdict.piA verdict.piB

namespace Faithful

variable {codec : MeshCodec} {l l' : Lookups} {index now : Nat} {call : AuthCall}

/-- A verdict that the store bears out may be added. -/
theorem verdicts_concat {piA piB : String} {authorized : Bool} (faithful : Faithful codec l)
    (is : authorized = storeAuthorizes codec l.world.store piA piB) :
    ∀ verdict ∈ l.verdicts ++ [⟨piA, piB, authorized⟩],
      verdict.authorized = storeAuthorizes codec l.world.store verdict.piA verdict.piB := by
  intro verdict mem
  rcases List.mem_append.mp mem with earlier | here
  · exact faithful.verdicts verdict earlier
  · cases List.mem_singleton.mp here
    exact is

/-- What is left after a stale entry is gone was there before. -/
theorem entries_expire (faithful : Faithful codec l) (piPk : String) :
    ∀ key entry, (l.world.cache.expire piPk).entries.lookup key = some entry →
      l.poisoned key = false →
      entry.membership =
        MeshAuthCache.membershipOf (scanMembership codec key l.world.store.rows) := by
  intro key entry found
  exact faithful.entries key entry (Map.lookup_of_erase found)

/-- Only a cached entry and a completed scan give answers: the first agrees with the store as it
comes from no failure, the second as it was read from the store. -/
theorem step {a : LookupAction} (faithful : Faithful codec l) (unread : Unread l a)
    (took : Took codec l a l') : Faithful codec l' := by
  have read := faithful.toScansRead.step took
  cases took with
  | isAuthorized index piA piB free => exact ⟨read, faithful.entries, faithful.verdicts⟩
  | cached index now call entry here stage found =>
    refine ⟨read, faithful.entries, faithful.verdicts_concat ?_⟩
    -- the cached entry is clean, so it says what a scan would
    have cached := (MeshAuthCache.lookup_of_freshEntry found).1
    have clean := unread call here entry found
    rw [faithful.entries call.piA entry cached clean, members_membershipOf]
    rfl
  | waits index now call here stage inFlight =>
    exact ⟨read, faithful.entries_expire call.piA, faithful.verdicts⟩
  | refused index now call here stage refuses =>
    exact ⟨read, faithful.entries_expire call.piA, faithful.verdicts⟩
  | scans index now call here stage free =>
    exact ⟨read, faithful.entries_expire call.piA, faithful.verdicts⟩
  | wake index call here stage => exact ⟨read, faithful.entries, faithful.verdicts⟩
  | scan index fails call generation here stage =>
    exact ⟨read, faithful.entries, faithful.verdicts⟩
  | restarts index now oldest call generation membership here stage moved =>
    exact ⟨read, faithful.entries, faithful.verdicts⟩
  | finished index now oldest call generation membership entries here stage kept =>
    have scanned := faithful.scanned index call generation membership here stage
    -- the entry that is inserted is clean when its scan has not failed
    have entries_insert : ∀ key entry,
        (entries.insert call.piA ⟨MeshAuthCache.membershipOf membership, now⟩).lookup key =
          some entry →
        Function.update l.poisoned call.piA (l.failed index) key = false →
        entry.membership =
          MeshAuthCache.membershipOf (scanMembership codec key l.world.store.rows) := by
      intro key entry found clean
      rcases eq_or_ne key call.piA with rfl | other
      · rw [AList.lookup_insert] at found
        rw [Function.update_self] at clean
        cases found
        rw [scanned, clean]
        rfl
      · rw [AList.lookup_insert_ne other] at found
        rw [Function.update_of_ne other] at clean
        exact faithful.entries key entry (kept key entry found) clean
    refine ⟨read, entries_insert, ?_⟩
    split
    · exact faithful.verdicts
    · next succeeded =>
      refine faithful.verdicts_concat ?_
      rw [scanned, scanResult, if_neg succeeded]
      rfl

theorem init (initial : l.Initial codec) : Faithful codec l := by
  refine ⟨ScansRead.init initial, ?_, ?_⟩
  · intro key entry found _
    exact initial.truthful key entry found
  · rw [initial.verdicts]
    exact nofun

end Faithful

/-! ## Whole runs -/

section Runs

variable {codec : MeshCodec} {l l' : Lookups}

/-- It has done so in every run. -/
theorem scansRead_of_reachable (reached : (lookups codec).Reachable l) : ScansRead codec l :=
  reached.invariant (fun _ initial => ScansRead.init initial)
    fun _ _ _ read _ taken => read.step (Took.of_step taken)

/-- The verdicts are those of the store where no failure is read. -/
theorem faithful_of_reachable (reached : (lookups codec).ReachableUnder Unread l) :
    Faithful codec l :=
  reached.invariant (fun _ initial => Faithful.init initial)
    fun _ _ _ faithful unread taken => faithful.step unread (Took.of_step taken)

/-- The slots are those of the scans in every run. -/
theorem slotsHeld_of_reachable (reached : (lookups codec).Reachable l) : SlotsHeld l.world := by
  refine reached.invariant (I := fun l => SlotsHeld l.world) ?_ ?_
  · intro l initial
    have idle : l.world.scansFor = fun _ => none := by
      funext i
      rw [MeshWorld.scansFor, initial.calls i, Option.bind_none]
    constructor
    · intro piPk
      rw [initial.inFlight, idle]
      simp
    · intro i j piPk scans
      rw [idle] at scans
      cases scans
    · rw [initial.inFlight]
      exact List.nodup_nil
  · intro l a l' slots _ taken
    exact slots.step (Took.of_step taken)

/-- A step that does not complete a failed scan caches no failure. -/
theorem Took.poisoned {a : LookupAction} (took : Took codec l a l') (uncached : Uncached l a)
    (clean : ∀ key, l.poisoned key = false) : ∀ key, l'.poisoned key = false := by
  cases took with
  | finished index now oldest call generation membership entries here stage kept =>
    intro key
    dsimp only
    rcases eq_or_ne key call.piA with rfl | other
    · rw [Function.update_self]
      exact uncached
    · rw [Function.update_of_ne other]
      exact clean key
  | _ => exact clean

/-- No scan fails in a step without faults. -/
theorem Took.failed {a : LookupAction} (took : Took codec l a l') (faultless : Faultless l a)
    (clean : ∀ i, l.failed i = false) : ∀ i, l'.failed i = false := by
  cases took with
  | scan index fails call generation here stage =>
    intro i
    dsimp only
    rcases eq_or_ne i index with rfl | other
    · rw [Function.update_self]
      exact faultless
    · rw [Function.update_of_ne other]
      exact clean i
  | _ => exact clean

/-- Where no failure is cached, none is found. -/
theorem unread_of_clean (clean : ∀ key, l.poisoned key = false) (a : LookupAction) :
    Unread l a := by
  cases a with
  | lookup index now =>
    intro call _ _ _
    exact clean call.piA
  | _ => trivial

/-- No failure is read where none is cached. -/
theorem faithful_of_uncached (reached : (lookups codec).ReachableUnder Uncached l) :
    (∀ key, l.poisoned key = false) ∧ Faithful codec l := by
  refine reached.invariant
    (I := fun l => (∀ key, l.poisoned key = false) ∧ Faithful codec l) ?_ ?_
  · intro l initial
    exact ⟨initial.poisoned, Faithful.init initial⟩
  · intro l a l' ⟨clean, faithful⟩ uncached taken
    have took := Took.of_step taken
    exact ⟨took.poisoned uncached clean, faithful.step (unread_of_clean clean a) took⟩

/-- No failure is cached where there is none. -/
theorem faithful_of_faultless (reached : (lookups codec).ReachableUnder Faultless l) :
    Faithful codec l := by
  have invariant := reached.invariant (I := fun l =>
    (∀ i, l.failed i = false) ∧ (∀ key, l.poisoned key = false) ∧ Faithful codec l) ?_ ?_
  · exact invariant.2.2
  · intro l initial
    exact ⟨initial.failed, initial.poisoned, Faithful.init initial⟩
  · intro l a l' ⟨whole, clean, faithful⟩ faultless taken
    have took := Took.of_step taken
    have uncached : Uncached l a := by
      cases a with
      | finish index now oldest => exact whole index
      | _ => trivial
    exact ⟨took.failed faultless whole, took.poisoned uncached clean,
      faithful.step (unread_of_clean clean a) took⟩

/-- Over any store one call alone gets the answer of the store. -/
theorem exists_faultless (codec : MeshCodec) (store : MeshStore) (piA piB : String) :
    ∃ l, (lookups codec).ReachableUnder Faultless l ∧ l.world.store = store ∧
      ⟨piA, piB, storeAuthorizes codec store piA piB⟩ ∈ l.verdicts := by
  let start : Lookups :=
    ⟨⟨store, .new, fun _ => none, [], [], 0, []⟩, fun _ => false, fun _ => false, []⟩
  have initial : (lookups codec).Init start := by
    refine ⟨fun _ => rfl, rfl, rfl, ?_, fun _ => rfl, fun _ => rfl, rfl⟩
    intro key entry found
    cases found
  have executed : ∃ l, (lookups codec).exec start
      [.isAuthorized 0 piA piB, .lookup 0 0, .scan 0 false, .finish 0 0 ""] = some l ∧
      l.world.store = store ∧
      l.verdicts = [⟨piA, piB, storeAuthorizes codec store piA piB⟩] := ⟨_, rfl, rfl, rfl⟩
  obtain ⟨l, executed, same, verdicts⟩ := executed
  have meets : (lookups codec).Meets Faultless start
      [.isAuthorized 0 piA piB, .lookup 0 0, .scan 0 false, .finish 0 0 ""] := by
    refine ⟨trivial, ?_, rfl, trivial, trivial⟩
    rintro call ⟨⟩
    rfl
  refine ⟨l, ⟨start, initial, Machine.runsTo_of_exec meets executed⟩, same, ?_⟩
  rw [verdicts]
  exact List.mem_singleton.mpr rfl

/-- Without failures and refusals the store alone decides. -/
theorem wouldReturn_iff {codec : MeshCodec} {store : MeshStore} {piA piB : String}
    {authorized : Bool} :
    WouldReturn codec store piA piB authorized ↔
      authorized = storeAuthorizes codec store piA piB := by
  have only : ∀ (l : Lookups) other, (lookups codec).ReachableUnder Faultless l →
      l.world.store = store → ⟨piA, piB, other⟩ ∈ l.verdicts →
      other = storeAuthorizes codec store piA piB := by
    rintro l other reached rfl mem
    exact (faithful_of_faultless reached).verdicts _ mem
  constructor
  · rintro ⟨⟨l, reached, same, mem⟩, -⟩
    exact only l authorized reached same mem
  · rintro rfl
    exact ⟨exists_faultless codec store piA piB, only⟩

/-- In every run in which no failed scan completes, every definite answer is the one that the
call would get without the failures and refusals, no failure is cached, and the Pis with a slot
are those that a call scans for. For the answers alone it is enough that no call finds a fresh
entry cached by a failed scan. A failed scan that completes always releases its slot, and always
leaves its failure in the cache. -/
theorem lookups_unaffected (codec : MeshCodec) :
    (∀ l, (lookups codec).ReachableUnder Uncached l →
      (∀ verdict ∈ l.verdicts,
        WouldReturn codec l.world.store verdict.piA verdict.piB verdict.authorized) ∧
      (∀ key, l.poisoned key = false) ∧ SlotsHeld l.world) ∧
    (∀ l, (lookups codec).ReachableUnder Unread l → ∀ verdict ∈ l.verdicts,
      WouldReturn codec l.world.store verdict.piA verdict.piB verdict.authorized) ∧
    ∀ l, (lookups codec).Reachable l → SlotsHeld l.world ∧
      ∀ index now oldest l', l.failed index = true →
        (lookups codec).step l (.finish index now oldest) = some l' →
        ∃ call, l.world.calls index = some call ∧ call.piA ∉ l'.world.cache.inFlight ∧
          l'.world.cache.entries.lookup call.piA = some ⟨.absent, now⟩ := by
  refine ⟨?_, ?_, ?_⟩
  · intro l reached
    obtain ⟨clean, faithful⟩ := faithful_of_uncached reached
    refine ⟨?_, clean, slotsHeld_of_reachable (reached.mono fun _ _ _ => trivial)⟩
    intro verdict mem
    exact wouldReturn_iff.mpr (faithful.verdicts verdict mem)
  · intro l reached verdict mem
    exact wouldReturn_iff.mpr ((faithful_of_reachable reached).verdicts verdict mem)
  · intro l reached
    have slots := slotsHeld_of_reachable reached
    refine ⟨slots, ?_⟩
    intro index now oldest l' failed taken
    obtain ⟨call, here, released, cached⟩ :=
      (scansRead_of_reachable reached).finish_failed failed (Took.of_step taken)
    refine ⟨call, here, ?_, cached⟩
    rw [released]
    exact slots.nodup.not_mem_erase

/-- The mesh of the first Owner is in the store. -/
def storedMesh : Lookups where
  world := emptyMesh.publish ⟨"h1", [1], 1, [1], [], 0, 0, none⟩
  failed := fun _ => false
  poisoned := fun _ => false
  verdicts := []

theorem initial_storedMesh : storedMesh.Initial twoOwners :=
  ⟨fun _ => rfl, rfl, rfl, nofun, fun _ => rfl, fun _ => rfl, rfl⟩

/-- The scan of the first call fails to read the mesh, and what it has cached has expired when the
second call comes. -/
def expiredFailure : List LookupAction :=
  [.isAuthorized 0 "a" "b", .lookup 0 0, .scan 0 true, .finish 0 0 "", .isAuthorized 1 "a" "b",
    .lookup 1 meshAuthCacheTtl, .scan 1 false, .finish 1 meshAuthCacheTtl ""]

/-- The second call gets what it would get without the failure. -/
theorem lookups_unaffected_expired :
    ∃ l, (lookups twoOwners).ReachableUnder Unread l ∧ l.verdicts = [⟨"a", "b", true⟩] ∧
      WouldReturn twoOwners l.world.store "a" "b" true := by
  have meets : (lookups twoOwners).Meets Unread storedMesh expiredFailure := by decide +kernel
  have ran : ((lookups twoOwners).exec storedMesh expiredFailure).any (fun l =>
      decide (l.verdicts = [⟨"a", "b", true⟩])) = true := by
    decide +kernel
  obtain ⟨l, executed, facts⟩ := (Option.any_eq_true _ _).mp ran
  have reached : (lookups twoOwners).ReachableUnder Unread l :=
    ⟨_, initial_storedMesh, Machine.runsTo_of_exec meets executed⟩
  have verdicts := of_decide_eq_true facts
  refine ⟨l, reached, verdicts, ?_⟩
  exact (lookups_unaffected twoOwners).2.1 l reached ⟨"a", "b", true⟩ (by simp [verdicts])

/-- The scan of the first call fails, and the second call comes a second later. -/
def failedScan : List LookupAction :=
  [.isAuthorized 0 "a" "b", .lookup 0 0, .scan 0 true, .finish 0 0 "", .isAuthorized 1 "a" "b",
    .lookup 1 1000000000]

/-- A failure answers a later call that neither fails nor is refused. -/
theorem exists_failure_answer :
    ∃ l, (lookups twoOwners).Reachable l ∧ ∃ verdict ∈ l.verdicts,
      ¬WouldReturn twoOwners l.world.store verdict.piA verdict.piB verdict.authorized := by
  have ran : ((lookups twoOwners).exec storedMesh failedScan).any (fun l =>
      decide (l.verdicts = [⟨"a", "b", false⟩]) &&
        storeAuthorizes twoOwners l.world.store "a" "b") = true := by
    decide +kernel
  obtain ⟨l, executed, facts⟩ := (Option.any_eq_true _ _).mp ran
  rw [Bool.and_eq_true, decide_eq_true_eq] at facts
  obtain ⟨verdicts, authorizes⟩ := facts
  refine ⟨l, Machine.reachable_of_exec initial_storedMesh executed, ⟨"a", "b", false⟩, ?_, ?_⟩
  · rw [verdicts]
    exact List.mem_singleton.mpr rfl
  · rw [wouldReturn_iff, authorizes]
    exact Bool.false_ne_true

end Runs

end OutpostPi.Relay
