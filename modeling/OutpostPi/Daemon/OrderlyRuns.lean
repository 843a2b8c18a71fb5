import OutpostPi.Daemon.ChildOwnership

/-!
# Orderly runs of the supervisor

Every request, every resumed request and every step of a shutdown keeps the invariant when it is
orderly, so that the supervisor owns its children throughout an orderly run. Two short runs that
are not orderly leave an orphan behind.
-/

set_option autoImplicit false

namespace OutpostPi.Daemon

open OutpostPi.Lib

variable {Id JobId : Type} [DecidableEq Id]

namespace State

variable {s : State Id JobId} {k : Nat} {c : Slot Id}

/-! ## Requests -/

omit [DecidableEq Id] in
/-- A step that spawns is one that is taken before any shutdown. -/
theorem up_of_spawns {spawns : Bool} (ok : s.shuttingDown = true → spawns = false)
    (does : spawns = true) : s.shuttingDown = false := by
  cases down : s.shuttingDown with
  | false => rfl
  | true => exact nomatch (ok down).symm.trans does

theorem Owned.opStartAll (owned : s.Owned)
    (ok : s.shuttingDown = true → (s.registry.any fun id => !s.runs id) = false) :
    s.opStartAll.Owned := by
  cases down : s.shuttingDown with
  | false => exact owned.foldl_spawnEntry (fun _ mem => mem) down State.runs
  | true =>
    -- every registered daemon runs, so that nothing happens
    have all : ∀ id ∈ s.registry, s.runs id = true := by simpa using ok down
    have idle : s.opStartAll = s := by
      rw [State.opStartAll]
      generalize s.registry = ids at all
      induction ids with
      | nil => rfl
      | cons id ids ih =>
        rw [List.foldl_cons, if_pos (all id List.mem_cons_self)]
        exact ih fun other mem => all other (List.mem_cons_of_mem id mem)
    rw [idle]
    exact owned

theorem Owned.opStart (owned : s.Owned) {id : Id}
    (ok : s.shuttingDown = true → (decide (id ∈ s.registry) && !s.runs id) = false) :
    (s.opStart id).Owned := by
  rw [State.opStart]
  split
  · next registered =>
    split
    · exact owned
    · next idle => exact owned.spawnEntry registered (up_of_spawns ok (by simp [registered, idle]))
  · exact owned

theorem Owned.stopAllFrom (owned : s.Owned) (next : Nat) (restart : Bool) :
    (s.stopAllFrom next restart).Owned := by
  rw [State.stopAllFrom]
  split
  · exact (owned.clearRestartTimer _).awaitStop _ _
  · split
    · exact owned.withCalls _
    · exact owned

theorem Owned.opStop (owned : s.Owned) (id : Id) : (s.opStop id).Owned := by
  rw [State.opStop]
  split
  · split
    · exact owned
    · split
      · exact (owned.clearRestartTimer _).awaitStop _ _
      · exact owned
  · exact owned

theorem Owned.opRestart (owned : s.Owned) {id : Id}
    (ok : s.shuttingDown = true → (decide (id ∈ s.registry) && !s.runs id) = false) :
    (s.opRestart id).Owned := by
  rw [State.opRestart]
  split
  · next registered =>
    split
    · next none_ =>
      have idle : s.runs id = false := by rw [runs, none_]
      exact owned.spawnEntry registered (up_of_spawns ok (by simp [registered, idle]))
    · next k found =>
      split
      · exact (owned.clearRestartTimer _).awaitStop _ _
      · next idle =>
        have idle : s.runs id = false := by
          rw [runs, found]
          exact Bool.eq_false_of_not_eq_true idle
        exact owned.spawnEntry registered (up_of_spawns ok (by simp [registered, idle]))
  · exact owned

/-- More daemons may be registered. -/
theorem Owned.register (owned : s.Owned) {registry : List Id}
    (more : ∀ id, id ∈ s.registry → id ∈ registry) :
    ({ s with registry := registry } : State Id JobId).Owned :=
  { owned with registered := fun id k found => more id (owned.registered id k found) }

theorem Owned.opRegister (owned : s.Owned) (id : Id) : (s.opRegister id).Owned := by
  rw [State.opRegister]
  split
  · exact owned
  · exact owned.register fun other mem => List.mem_append_left _ mem

theorem Owned.opUnregister (owned : s.Owned) (id : Id) : (s.opUnregister id).Owned := by
  rw [State.opUnregister]
  split
  · next none_ =>
    -- a daemon without a slot leaves the registry alone
    refine { owned with registered := fun other k found => ?_ }
    have differs : other ≠ id := by
      rintro rfl
      cases none_.symm.trans found
    exact (List.mem_erase_of_ne differs).mpr (owned.registered other k found)
  · exact (owned.clearRestartTimer _).awaitStop _ _

section Jobs

variable [DecidableEq JobId]

theorem Owned.fireJob (owned : s.Owned) {id : JobId} {manual : Bool}
    (ok : s.shuttingDown = true → s.wakes id manual = false) : (s.fireJob id manual).Owned := by
  rw [State.fireJob]
  rw [State.wakes] at ok
  split
  · exact owned
  · next job fires =>
    rw [fires] at ok
    dsimp only at ok
    split
    · split
      · exact owned.withCalls _
      · exact owned
    · next idle =>
      split
      · next wakes =>
        exact owned.spawnEntry wakes.2 (up_of_spawns ok (by simp [idle, wakes.1, wakes.2]))
      · exact owned

theorem Owned.opCronEnable (owned : s.Owned) (id : JobId) (enabled : Bool) :
    (s.opCronEnable id enabled).Owned := by
  rw [State.opCronEnable]
  split
  · cases enabled with
    | true => exact owned.withJobs _ _
    | false => exact owned.withJobs _ _
  · exact owned

/-- Every request keeps the invariant, if it spawns nothing under a shutdown. -/
theorem Owned.handle (owned : s.Owned) {request : Request Id JobId}
    (ok : s.shuttingDown = true → s.spawnsEntry (.request request) = false) :
    (s.handle request).Owned := by
  cases request with
  | start id => exact owned.opStart ok
  | startAll => exact owned.opStartAll ok
  | stop id => exact owned.opStop id
  | stopAll => exact owned.stopAllFrom 0 false
  | restart id => exact owned.opRestart ok
  | restartAll => exact owned.stopAllFrom 0 true
  | register id => exact owned.opRegister id
  | unregister id => exact owned.opUnregister id
  | cronAdd job =>
    rw [State.handle]
    split
    · exact owned
    · exact owned.withJobs _ _
  | cronRemove id => exact owned.withJobs _ _
  | cronEnable id enabled => exact owned.opCronEnable id enabled
  | cronRun id => exact owned.fireJob ok
  | other => exact owned

end Jobs

/-- A slot that cannot run may be forgotten together with its daemon. -/
theorem Owned.forget (owned : s.Owned) {id : Id}
    (idle : ∀ k ∈ s.slotOf id, ∀ c ∈ s.slots[k]?, ¬ c.MayRun) :
    ({ s with
      children := s.children.erase id
      registry := s.registry.erase id } : State Id JobId).Owned := by
  -- the forgotten daemon has no slot, the others have theirs
  have own : ({ s with children := s.children.erase id } : State Id JobId).slotOf id = none := by
    rw [slotOf, OrderedMap.get?_erase_self]
    rfl
  have others (other : Id) (differs : other ≠ id) :
      ({ s with children := s.children.erase id } : State Id JobId).slotOf other =
        s.slotOf other := by
    rw [slotOf, OrderedMap.get?_erase_of_ne differs, slotOf]
  constructor
  case named =>
    intro other k found
    by_cases equal : other = id
    · subst equal
      cases own.symm.trans found
    · exact owned.named other k ((others other equal).symm.trans found)
  case registered =>
    intro other k found
    by_cases equal : other = id
    · subst equal
      cases own.symm.trans found
    · exact (List.mem_erase_of_ne equal).mpr
        (owned.registered other k ((others other equal).symm.trans found))
  case stored =>
    intro k c here unasked
    have stored := owned.stored k c here unasked
    by_cases equal : c.id = id
    · subst equal
      -- a slot that runs would not have been forgotten
      exact absurd (.inl unasked) (idle k stored c here)
    · exact (others c.id equal).trans stored
  case running => exact owned.running
  case timed =>
    intro t k mem
    obtain ⟨c, here, remembered, failed | ⟨absent, stored, up⟩⟩ := owned.timed t k mem
    · exact ⟨c, here, remembered, .inl failed⟩
    · by_cases equal : c.id = id
      · subst equal
        refine absurd (.inr ⟨?_, ?_⟩) (idle k stored c here)
        · simp [remembered]
        · simp [absent]
      · exact ⟨c, here, remembered, .inr ⟨absent, (others c.id equal).trans stored, up⟩⟩
  case fresh => exact owned.fresh
  case up => exact owned.up
  case awaited => exact owned.awaited
  case ended => exact owned.ended

/-! ## Shutdown -/

omit [DecidableEq Id] in
theorem Calms.slot {s s' : State Id JobId} (calms : Calms s s') {j : Nat} {c' : Slot Id}
    (here : s'.slots[j]? = some c') :
    ∃ c, s.slots[j]? = some c ∧ c'.id = c.id ∧ c'.process = c.process := by
  have same := calms.slots j
  rw [here, Option.map_some] at same
  obtain ⟨c, there, equal⟩ := Option.map_eq_some_iff.mp same.symm
  exact ⟨c, there, (Prod.mk.inj equal).1.symm, (Prod.mk.inj equal).2.symm⟩

theorem mem_stored {id : Id} (found : s.slotOf id = some k) :
    k ∈ s.children.entries.map fun entry => entry.2.slot := by
  obtain ⟨entry, get, rfl⟩ := Option.map_eq_some_iff.mp found
  exact List.mem_map.mpr ⟨(id, entry), OrderedMap.get?_eq_some_iff.mp get, rfl⟩

/-- A shutdown begins. When every living child is that of a stored slot, it awaits them all,
and no timer is left that could spawn another. -/
theorem Owned.beginStop (owned : s.Owned)
    (own : ∀ (k : Nat) (c : Slot Id), s.slots[k]? = some c → c.process = .live →
      s.slotOf c.id = some k) : s.beginStop.Owned := by
  rw [State.beginStop]
  generalize storedEq : (s.children.entries.map fun entry => entry.2.slot) = stored
  obtain ⟨clearedOwned, clearing, cleared⟩ := owned.foldl_clear stored
  generalize stored.foldl State.clearRestartTimer s = s₁ at clearedOwned clearing cleared
  obtain ⟨askedOwned, asking⟩ := clearedOwned.foldl_ask stored
  generalize stored.foldl (fun s k => s.modifySlot k Slot.stop) s₁ = s₂ at askedOwned asking
  refine ⟨askedOwned.named, askedOwned.registered, askedOwned.stored, askedOwned.running, ?_,
    askedOwned.fresh, fun up => (nomatch up), ?_, askedOwned.ended⟩
  · intro t k mem
    obtain ⟨c, here, remembered, failed | ⟨-, found, -⟩⟩ := askedOwned.timed t k mem
    · exact ⟨c, here, remembered, .inl failed⟩
    · have same : s₂.slotOf c.id = s.slotOf c.id := by
        rw [slotOf, asking.children, clearing.children, slotOf]
      have listed : k ∈ stored := storedEq ▸ mem_stored (same.symm.trans found)
      exact absurd (asking.timers _ mem) (cleared k listed t)
  · intro shutdown mem k c here living
    rcases List.mem_append.mp mem with old | new
    · exact askedOwned.awaited shutdown old k c here living
    · obtain rfl := List.mem_singleton.mp new
      obtain ⟨c₁, here₁, named₁, process₁⟩ := asking.slot here
      obtain ⟨c₀, here₀, named₀, process₀⟩ := clearing.slot here₁
      have living₁ : c₁.process = .live := process₁.symm.trans living
      have listed : k ∈ stored :=
        storedEq ▸ mem_stored (own k c₀ here₀ (process₀.symm.trans living₁))
      refine ⟨_, rfl, List.mem_filterMap.mpr ⟨k, listed, ?_⟩⟩
      simp [State.awaited, here₁, living₁]

/-- No child lives when all that a shutdown awaits have exited. -/
theorem Owned.forgetAll (owned : s.Owned) {i : Nat} (done : s.shutdowns[i]? = some (.stopping [])) :
    ({ s with children := .empty, shutdowns := s.shutdowns.set i .closing } :
      State Id JobId).Owned := by
  have gone (k : Nat) (c : Slot Id) (here : s.slots[k]? = some c) : c.process ≠ .live := by
    intro living
    obtain ⟨waiting, same, mem⟩ :=
      owned.awaited _ (List.mem_of_getElem? done) k c here living
    cases same
    cases mem
  have down : s.shuttingDown = true := by
    cases up : s.shuttingDown with
    | true => rfl
    | false =>
      rw [(owned.up up).1] at done
      cases done
  constructor
  case named => exact fun id k found => nomatch found
  case registered => exact fun id k found => nomatch found
  case stored => exact fun k c here unasked => absurd unasked.1 (gone k c here)
  case running => exact owned.running
  case timed =>
    intro t k mem
    obtain ⟨c, here, remembered, failed | ⟨-, -, up⟩⟩ := owned.timed t k mem
    · exact ⟨c, here, remembered, .inl failed⟩
    · exact nomatch down.symm.trans up
  case fresh => exact owned.fresh
  case up => exact fun up => nomatch down.symm.trans up
  case awaited => exact fun shutdown mem k c here living => absurd living (gone k c here)
  case ended => exact fun _ => gone

/-- The server closes. -/
theorem Owned.close (owned : s.Owned) {i : Nat} (closing : s.shutdowns[i]? = some .closing) :
    ({ s with stopped := true, shutdowns := s.shutdowns.eraseIdx i } : State Id JobId).Owned := by
  have gone (k : Nat) (c : Slot Id) (here : s.slots[k]? = some c) : c.process ≠ .live := by
    intro living
    obtain ⟨waiting, same, -⟩ :=
      owned.awaited _ (List.mem_of_getElem? closing) k c here living
    cases same
  have down : s.shuttingDown = true := by
    cases up : s.shuttingDown with
    | true => rfl
    | false =>
      rw [(owned.up up).1] at closing
      cases closing
  refine ⟨owned.named, owned.registered, owned.stored, owned.running, owned.timed, owned.fresh,
    fun up => (nomatch down.symm.trans up), fun shutdown mem => ?_, fun _ => gone⟩
  exact owned.awaited shutdown (List.mem_of_mem_eraseIdx mem)

/-! ## Steps -/

variable [DecidableEq JobId]

/-- Every orderly step keeps the invariant. -/
theorem Owned.step (owned : s.Owned) {event : Event Id JobId} {s' : State Id JobId}
    (orderly : Orderly s event) (taken : s.step event = some s') : s'.Owned := by
  obtain ⟨calm, own⟩ := orderly
  cases event with
  | request request =>
    rw [State.step] at taken
    split at taken
    · cases taken
    · cases taken
      exact owned.handle calm
  | resume i =>
    rw [State.step] at taken
    split at taken
    · next rest here =>
      cases taken
      have kept := owned.withCalls (s.calls.eraseIdx i)
      have own := own _ here
      -- what the call goes on with, once the exit it awaited has come
      cases rest with
      | stop => exact kept
      | stopAll next restart => exact kept.stopAllFrom next restart
      | startAll =>
        refine kept.opStartAll fun down => ?_
        have idle := calm down
        rw [spawnsEntry, here] at idle
        exact idle
      | restart id =>
        refine kept.spawnEntry own ?_
        -- during a shutdown the orderly run has no call that would spawn
        cases up : s.shuttingDown with
        | false => rfl
        | true =>
          have idle := calm up
          rw [spawnsEntry, here] at idle
          cases idle
      | unregister id => exact kept.forget own
      | fireJob manual => exact kept
    · cases taken
  | exit k exit =>
    rw [State.step] at taken
    split at taken
    · next c here =>
      obtain ⟨living, rfl⟩ := Machine.of_guard taken
      exact owned.exited here living exit
    · cases taken
  | error k =>
    rw [State.step] at taken
    split at taken
    · next c here =>
      obtain ⟨living, rfl⟩ := Machine.of_guard taken
      exact owned.failed here living fun up => own up c here
    · cases taken
  | timer timer =>
    rw [State.step] at taken
    split at taken
    · next found here =>
      cases taken
      -- a timer that fires is one that was set
      have same : found.1 = timer := by simpa using List.find?_some here
      have mem := List.mem_of_find?_eq_some here
      obtain ⟨_, k⟩ := found
      subst same
      exact owned.restartSlot mem
    · cases taken
  | cron id =>
    rw [State.step] at taken
    obtain ⟨_, rfl⟩ := Machine.of_guard taken
    exact owned.fireJob calm
  | stop =>
    cases taken
    exact owned.beginStop fun k c here living =>
      own k (List.getElem?_eq_some_iff.mp here).1 c here living
  | stopped i =>
    rw [State.step] at taken
    split at taken
    · next done =>
      cases taken
      exact owned.forgetAll done
    · cases taken
  | closed i =>
    rw [State.step] at taken
    split at taken
    · next closing =>
      cases taken
      exact owned.close closing
    · cases taken

end State

/-! ## Runs -/

/-- The supervisor owns every child in every orderly run. -/
theorem owns_children [DecidableEq JobId] {s : State Id JobId}
    (reached : (supervisor Id JobId).ReachableUnder Orderly s) : s.OwnsChildren := by
  have owned : s.Owned := by
    refine reached.invariant ?_ fun t event t' owned orderly taken => owned.step orderly taken
    rintro t ⟨registry, jobs, rfl⟩
    exact State.owned_started registry jobs
  exact owned.ownsChildren

/-- A daemon is restarted, and then all are stopped. -/
theorem owns_children_restarted :
    ∃ s : State Nat Nat, (supervisor Nat Nat).ReachableUnder Orderly s ∧ s.slots.length = 3 ∧
      s.stopped = true ∧ s.OwnsChildren := by
  let schedule : List (Event Nat Nat) :=
    [.request (.restart 0), .exit 0 .crash, .resume 0, .exit 1 .crash, .timer 0, .stop,
      .exit 1 .crash, .exit 2 .clean, .stopped 0, .closed 0]
  have ran : ((supervisor Nat Nat).exec (.started [0, 1] []) schedule).any (fun s =>
      decide (s.slots.length = 3 ∧ s.stopped = true)) = true := by decide +kernel
  have meets : (supervisor Nat Nat).Meets Orderly (.started [0, 1] []) schedule := by
    decide +kernel
  obtain ⟨s, executed, facts⟩ := (Option.any_eq_true _ _).mp ran
  have reached : (supervisor Nat Nat).ReachableUnder Orderly s :=
    ⟨_, ⟨_, _, rfl⟩, Machine.runsTo_of_exec meets executed⟩
  obtain ⟨length, stopped⟩ := of_decide_eq_true facts
  exact ⟨s, reached, length, stopped, owns_children reached⟩

/-- A child is orphaned. A restart and an unregistration that overlap leave a child that no
slot holds, of a daemon that is not registered; and a daemon that is started again while others
are still stopping outlives the supervisor. -/
theorem exists_orphan :
    (∃ s : State Nat Nat, (supervisor Nat Nat).Reachable s ∧ s.calls = [] ∧
      (∃ (k : Nat) (c : Slot Nat), s.slots[k]? = some c ∧ c.Unasked ∧
        s.slotOf c.id = none ∧ c.id ∉ s.registry) ∧ ¬ s.OwnsChildren) ∧
    ∃ s : State Nat Nat, (supervisor Nat Nat).Reachable s ∧ s.stopped = true ∧
      (∃ (k : Nat) (c : Slot Nat), s.slots[k]? = some c ∧ c.Unasked) ∧ ¬ s.OwnsChildren := by
  constructor
  · have ran : ((supervisor Nat Nat).exec (.started [0] [])
        [.request (.restart 0), .request (.unregister 0), .exit 0 .crash, .resume 0,
          .resume 0]).any (fun s => decide (s.calls = [] ∧ s.registry = [] ∧
            s.slotOf 0 = none ∧ ∃ c ∈ s.slots[1]?, c.Unasked ∧ c.id = 0)) = true := by
      decide +kernel
    obtain ⟨s, executed, facts⟩ := (Option.any_eq_true _ _).mp ran
    obtain ⟨quiet, none_, lost, c, here, unasked, named⟩ := of_decide_eq_true facts
    rw [← named] at lost
    have reached := Machine.reachable_of_exec (M := supervisor Nat Nat) ⟨_, _, rfl⟩ executed
    refine ⟨s, reached, quiet, ⟨1, c, here, unasked, lost, by simp [none_]⟩, fun owns => ?_⟩
    exact nomatch lost.symm.trans (owns.stored 1 c here unasked)
  · have ran : ((supervisor Nat Nat).exec (.started [0, 1] [])
        [.stop, .exit 0 .crash, .request (.start 0), .exit 1 .crash, .stopped 0,
          .closed 0]).any (fun s => decide (s.stopped = true ∧
            ∃ c ∈ s.slots[2]?, c.Unasked)) = true := by
      decide +kernel
    obtain ⟨s, executed, facts⟩ := (Option.any_eq_true _ _).mp ran
    obtain ⟨stopped, c, here, unasked⟩ := of_decide_eq_true facts
    have reached := Machine.reachable_of_exec (M := supervisor Nat Nat) ⟨_, _, rfl⟩ executed
    refine ⟨s, reached, stopped, ⟨2, c, here, unasked⟩, fun owns => ?_⟩
    exact owns.stopped stopped 2 c here unasked.1

end OutpostPi.Daemon
