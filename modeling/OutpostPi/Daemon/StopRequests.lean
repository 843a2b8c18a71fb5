import OutpostPi.Daemon.StoppedChildren
import Mathlib.Data.Fintype.Basic

/-!
# A stopped daemon stays stopped

The code answers a request to stop a daemon that does not run at once and leaves its restart timer
alone, so that the daemon comes back (`respawns`). `stays_stopped` says that nothing else goes
wrong: where every answer finds the daemon at rest, none is spawned again unasked.
-/

set_option autoImplicit false

namespace OutpostPi.Daemon

open OutpostPi.Lib

section Model

variable {Id JobId : Type} [DecidableEq Id] [DecidableEq JobId]

/-! ## Answers -/

/-- A child runs at a position from `next` on, so that `_opStopAll` has more to stop. -/
def State.runsFrom (s : State Id JobId) (next : Nat) : Bool :=
  s.children.entries.any fun entry => decide (next ≤ entry.2.position) && s.slotRuns entry.2.slot

/-- The supervisor, with the requests to stop daemons that it has served. -/
structure Watch (Id JobId : Type) where
  supervisor : State Id JobId
  /-- The daemon of each call of `_opStop` among the suspended requests. -/
  subjects : List (Option Id)
  /-- The daemons that were stopped and not started since. -/
  halted : Id → Bool
  /-- Those that were spawned while they were halted. -/
  respawned : List Id

/-- The step answers a request that has stopped the daemon. -/
def Watch.answers (w : Watch Id JobId) (id : Id) : Event Id JobId → Bool
  | .request (.stop other) =>
    other = id && other ∈ w.supervisor.registry && !w.supervisor.runs other
  | .request .stopAll => !w.supervisor.runsFrom 0
  | .request (.unregister other) => other = id && (w.supervisor.slotOf other).isNone
  | .resume i =>
    match w.supervisor.calls[i]? with
    | some ⟨_, .stop⟩ => w.subjects[i]? = some (some id)
    | some ⟨_, .stopAll next restart⟩ => !restart && !w.supervisor.runsFrom next
    | some ⟨_, .unregister other⟩ => other = id
    | _ => false
  | _ => false

/-- The daemon of a call that an event suspends. -/
def Event.subject? : Event Id JobId → Option Id
  | .request (.stop id) => some id
  | _ => none

/-- The subjects of the calls that are left, and of the one that the step has added. -/
def Watch.subjectsAfter (w : Watch Id JobId) (event : Event Id JobId) (calls : List (Call Id)) :
    List (Option Id) :=
  let left := match event with
    | .resume i => w.subjects.eraseIdx i
    | _ => w.subjects
  left ++ List.replicate (calls.length - left.length) event.subject?

def Watch.step (w : Watch Id JobId) (event : Event Id JobId) : Option (Watch Id JobId) :=
  (w.supervisor.step event).map fun s' =>
    let halted := fun id => w.halted id && !w.supervisor.concerns id event
    { supervisor := s'
      subjects := w.subjectsAfter event s'.calls
      halted := fun id => halted id || w.answers id event
      respawned := w.respawned ++ (s'.slots.map Slot.id).filter fun id =>
        halted id && w.supervisor.spawned event s' id }

/-- The supervisor, watched from the moment when it has started. -/
def watch (Id JobId : Type) [DecidableEq Id] [DecidableEq JobId] :
    Machine (Watch Id JobId) (Event Id JobId) where
  Init w := ∃ registry jobs, w = ⟨.started registry jobs, [], fun _ => false, []⟩
  step := Watch.step

/-- A request is answered only when the daemons that it has stopped are at rest. -/
def AnswersAtRest (w : Watch Id JobId) (event : Event Id JobId) : Prop :=
  ∀ id, w.answers id event = true → w.supervisor.AtRest id

instance [Fintype Id] (w : Watch Id JobId) (event : Event Id JobId) :
    Decidable (AnswersAtRest w event) :=
  inferInstanceAs (Decidable (∀ id, w.answers id event = true → w.supervisor.AtRest id))

end Model

variable {Id JobId : Type} [DecidableEq Id]

namespace State

variable {s s' : State Id JobId} {id : Id} {k : Nat} {c : Slot Id}

/-! ## Steps -/

/-- A process exits. Only one that was not asked to stop is spawned again. -/
theorem evolves_exited (named : s.Named) (here : s.slots[k]? = some c) (living : c.process = .live)
    (exit : Exit) : Evolves (fun id => ¬ s.AtRest id) s (s.exited k c exit) := by
  rw [State.exited, modifySlot_of_some here]
  have gone : Evolves (fun id => ¬ s.AtRest id) s { s with
      slots := s.slots.set k { c with
        process := .absent
        state := if (!c.stopping && exit != .clean) = true then .crashed else .stopped } } :=
    evolves_setSlot here rfl (.inr ⟨fun was => (by cases living.symm.trans was),
      fun alive => (by cases alive)⟩)
  refine gone.trans (evolves_emitExit (gone.named named) k fun crash => .inl fun rest => ?_)
  obtain ⟨asked, -⟩ := rest.children k (List.getElem?_eq_some_iff.mp here).1 c here rfl living
  simp [asked] at crash

/-- A process could not be spawned. For the slot that has it no timer does anything. -/
theorem evolves_failed (named : s.Named) (here : s.slots[k]? = some c)
    (living : c.process = .live) : Evolves (fun id => ¬ s.AtRest id) s (s.failed k c) := by
  rw [State.failed, modifySlot_of_some here]
  have gone : Evolves (fun id => ¬ s.AtRest id) s { s with
      slots := s.slots.set k { c with process := .failed, state := .crashed } } :=
    evolves_setSlot here rfl (.inr ⟨fun _ => rfl, fun alive => (by cases alive)⟩)
  refine gone.trans (evolves_emitExit (gone.named named) k fun _ => ?_)
  by_cases rest : s.AtRest c.id
  · refine .inr ⟨rfl, fun j stored d there => ?_⟩
    obtain ⟨-, own⟩ := rest.children k (List.getElem?_eq_some_iff.mp here).1 c here rfl living
    obtain rfl := own j stored
    have there : (s.slots.set j { c with process := .failed, state := .crashed })[j]? = some d :=
      there
    rw [getElem?_set_of_some here] at there
    cases there
    rfl
  · exact .inl rest

theorem evolves_restartSlot {timer : Nat} (pending : (timer, k) ∈ s.timers) :
    Evolves (fun id => ¬ s.AtRest id) s (s.restartSlot timer k) := by
  have dropped : Evolves (fun id => ¬ s.AtRest id) s
      { s with timers := s.timers.filter fun other => other.1 ≠ timer } :=
    evolves_of_eq rfl rfl (fun _ mem => (List.mem_filter.mp mem).1)
      fun call mem _ starts => .inr ⟨call, mem, starts⟩
  refine dropped.trans (evolves_modifySlot _ k (fun c => Slot.spawn_id _) fun c here => ?_)
  · by_cases rest : s.AtRest c.id
    · have failed := rest.timers _ pending c here rfl
      simp [Slot.spawn, Slot.noteRestart, failed]
    · exact .inl rest

variable {free : Id → Prop}

theorem evolves_beginStop (s : State Id JobId) : Evolves free s s.beginStop := by
  have clear : ∀ (ks : List Nat) (t : State Id JobId),
      Evolves free t (ks.foldl State.clearRestartTimer t) := by
    intro ks
    induction ks with
    | nil => exact .refl free
    | cons k ks ih => exact fun t => (evolves_clearRestartTimer t k).trans (ih _)
  have ask : ∀ (ks : List Nat) (t : State Id JobId),
      Evolves free t (ks.foldl (fun t k => t.modifySlot k Slot.stop) t) := by
    intro ks
    induction ks with
    | nil => exact .refl free
    | cons k ks ih => exact fun t => (evolves_ask t k).trans (ih _)
  exact ((clear _ s).trans (ask _ _)).trans (evolves_of_eq rfl rfl (fun _ mem => mem)
    fun call mem _ starts => .inr ⟨call, mem, starts⟩)

/-- Slots may be forgotten. -/
theorem evolves_forget (slots : s'.slots = s.slots)
    (stored : ∀ id k, s'.slotOf id = some k → s.slotOf id = some k)
    (timers : s'.timers = s.timers) (calls : s'.calls = s.calls) : Evolves free s s' where
  kept k c here := ⟨c, by rw [slots, here], rfl⟩
  stored id k found := .inl (stored id k found)
  slots k c' here := by
    rw [slots] at here
    exact .inr ⟨c', here, rfl, fun was => was, fun alive => ⟨alive, fun was => was⟩⟩
  timers timer mem := .inl (timers ▸ mem)
  calls call mem _ starts := .inr ⟨call, calls ▸ mem, starts⟩

variable [DecidableEq JobId]

theorem evolves_fireJob (s : State Id JobId) (job : JobId) (manual : Bool)
    (may : ∀ id, s.wakesDaemon id job manual = true → free id) :
    Evolves free s (s.fireJob job manual) := by
  rw [State.fireJob]
  split
  · exact .refl free s
  · next found fires =>
    split
    · split
      · exact evolves_call s _ fun id starts => (by cases starts)
      · exact .refl free s
    · next idle =>
      split
      · next wakes =>
        refine evolves_spawnEntry s (may _ ?_)
        simp [wakesDaemon, State.wakes, fires, idle, wakes.1, wakes.2]
      · exact .refl free s

/-- The change of a request or a continuation that starts no daemon but those it may. -/
theorem evolves_handle (s : State Id JobId) (request : Request Id JobId)
    (may : ∀ id, s.concerns id (.request request) = true → free id) :
    Evolves free s (s.handle request) := by
  -- requests that touch neither slots nor children nor timers nor calls
  have same {s' : State Id JobId} (slots : s'.slots = s.slots) (children : s'.children = s.children)
      (timers : s'.timers = s.timers) (calls : s'.calls = s.calls) : Evolves free s s' :=
    evolves_forget slots (fun id k found => by rwa [slotOf, children] at found) timers calls
  cases request with
  | start id =>
    rw [State.handle, State.opStart]
    split
    · next registered =>
      split
      · exact .refl free s
      · exact evolves_spawnEntry s (may id (by simp [concerns, registered]))
    · exact .refl free s
  | startAll =>
    exact evolves_foldl_spawnEntry (fun id mem => may id (by simp [concerns, mem])) State.runs s
  | stop id =>
    rw [State.handle, State.opStop]
    split
    · split
      · exact .refl free s
      · split
        · exact evolves_stop s _ fun id starts => (by cases starts)
        · exact .refl free s
    · exact .refl free s
  | stopAll => exact evolves_stopAllFrom s 0 fun again => (by cases again)
  -- a restart of a child that runs spawns it only after its exit, when the call resumes
  | restart id =>
    rw [State.handle, State.opRestart]
    split
    · next registered =>
      have may : free id := may id (by simp [concerns, registered])
      split
      · exact evolves_spawnEntry s may
      · split
        · refine evolves_stop s _ fun other starts => ?_
          obtain rfl : id = other := of_decide_eq_true starts
          exact may
        · exact evolves_spawnEntry s may
    · exact .refl free s
  | restartAll => exact evolves_stopAllFrom s 0 fun _ id => may id rfl
  | register id =>
    rw [State.handle, State.opRegister]
    split
    · exact .refl free s
    · exact same rfl rfl rfl rfl
  | unregister id =>
    rw [State.handle, State.opUnregister]
    split
    · exact same rfl rfl rfl rfl
    · exact evolves_stop s _ fun id starts => (by cases starts)
  | cronAdd job =>
    rw [State.handle]
    split
    · exact .refl free s
    · exact same rfl rfl rfl rfl
  | cronRemove id => exact same rfl rfl rfl rfl
  | cronEnable id enabled =>
    rw [State.handle, State.opCronEnable]
    split
    · cases enabled with
      | true => exact same rfl rfl rfl rfl
      | false => exact same rfl rfl rfl rfl
    · exact .refl free s
  | cronRun id => exact evolves_fireJob s id true may
  | other => exact .refl free s

omit [DecidableEq JobId] in
/-- A request is resumed. What it starts was not at rest. -/
theorem evolves_resume {i : Nat} {call : Call Id} (here : s.calls[i]? = some call) :
    Evolves (fun id => ¬ s.AtRest id) s
      (State.continue_ { s with calls := s.calls.eraseIdx i } call.rest) := by
  have mem : call ∈ s.calls := List.mem_of_getElem? here
  have restless (id : Id) (starts : call.rest.starts id = true) : ¬ s.AtRest id :=
    fun rest => nomatch (rest.calls call mem).symm.trans starts
  have left : Evolves (fun id => ¬ s.AtRest id) s { s with calls := s.calls.eraseIdx i } :=
    evolves_of_eq rfl rfl (fun _ mem => mem)
      fun other mem _ starts => .inr ⟨other, List.mem_of_mem_eraseIdx mem, starts⟩
  refine left.trans ?_
  cases rest : call.rest with
  | stop => exact .refl _ _
  | stopAll next restart =>
    refine evolves_stopAllFrom _ next fun again id => restless id ?_
    rw [rest]
    exact again
  | startAll =>
    refine evolves_foldl_spawnEntry (fun id _ => restless id ?_) State.runs _
    rw [rest]
    rfl
  | restart id =>
    refine evolves_spawnEntry _ (restless id ?_)
    rw [rest]
    exact decide_eq_true rfl
  | unregister id =>
    refine evolves_forget rfl (fun other k found => ?_) rfl rfl
    by_cases equal : other = id
    · subst equal
      rw [State.continue_, slotOf, OrderedMap.get?_erase_self] at found
      cases found
    · rwa [State.continue_, slotOf, OrderedMap.get?_erase_of_ne equal] at found
  | fireJob manual => exact .refl _ _

/-- A step starts only daemons that it concerns or that were not at rest. -/
theorem evolves_step (named : s.Named) {event : Event Id JobId} (taken : s.step event = some s') :
    Evolves (fun id => s.concerns id event = true ∨ ¬ s.AtRest id) s s' := by
  -- only requests and cron jobs bring in daemons that were at rest
  cases event with
  | request request =>
    rw [State.step] at taken
    split at taken
    · cases taken
    · cases taken
      exact evolves_handle s request fun id concerns => .inl concerns
  | resume i =>
    rw [State.step] at taken
    split at taken
    · next rest here =>
      cases taken
      exact (evolves_resume here).mono fun id => .inr
    · cases taken
  | exit k exit =>
    rw [State.step] at taken
    split at taken
    · next c here =>
      obtain ⟨living, rfl⟩ := Machine.of_guard taken
      exact (evolves_exited named here living exit).mono fun id => .inr
    · cases taken
  | error k =>
    rw [State.step] at taken
    split at taken
    · next c here =>
      obtain ⟨living, rfl⟩ := Machine.of_guard taken
      exact (evolves_failed named here living).mono fun id => .inr
    · cases taken
  | timer timer =>
    rw [State.step] at taken
    split at taken
    · next found here =>
      cases taken
      have same : found.1 = timer := by simpa using List.find?_some here
      have mem := List.mem_of_find?_eq_some here
      obtain ⟨_, k⟩ := found
      subst same
      exact (evolves_restartSlot mem).mono fun id => .inr
    · cases taken
  | cron id =>
    rw [State.step] at taken
    obtain ⟨_, rfl⟩ := Machine.of_guard taken
    exact evolves_fireJob s id false fun id wakes => .inl wakes
  | stop =>
    cases taken
    exact evolves_beginStop s
  | stopped i =>
    rw [State.step] at taken
    split at taken
    · cases taken
      exact evolves_forget rfl (fun id k found => (by cases found)) rfl rfl
    · cases taken
  | closed i =>
    rw [State.step] at taken
    split at taken
    · cases taken
      exact evolves_forget rfl (fun id k found => found) rfl rfl
    · cases taken

omit [DecidableEq JobId] in
/-- A process that was asked to stop leaves its slot empty. -/
theorem exited_of_stopping (here : s.slots[k]? = some c) (asked : c.stopping = true) (exit : Exit) :
    (s.exited k c exit).slots[k]? = some { c with process := .absent, state := .stopped } := by
  have calm (t : State Id JobId) (fresh : Bool) : t.onChildExit c.id false fresh = t := by
    rw [State.onChildExit]
    split
    · rfl
    · split <;> rfl
  rw [State.exited, modifySlot_of_some here, asked]
  simp only [Bool.not_true, Bool.false_and, Bool.false_eq_true, if_false, emitExit, calm]
  exact getElem?_set_of_some here

/-- A daemon at rest is left at rest, and is not spawned, by a step that does not concern
it. -/
theorem AtRest.step (rest : s.AtRest id) (named : s.Named) {event : Event Id JobId}
    (quiet : s.concerns id event = false) (taken : s.step event = some s') :
    s'.AtRest id ∧ s.spawned event s' id = false := by
  have evolves := evolves_step named taken
  -- neither the event nor a lack of rest allows a change at this daemon
  have held : ¬ (s.concerns id event = true ∨ ¬ s.AtRest id) := by simp [quiet, rest]
  constructor
  · constructor
    -- no timer is set, and none that was set has become its own
    · intro timer mem c' there same
      rcases evolves.timers timer mem with old | calm
      · rcases evolves.slots _ c' there with may | ⟨c, here, named, failed, -⟩
        · exact absurd (same ▸ may) held
        · exact failed (rest.timers timer old c here (named.trans same))
      · exact (calm c' there).resolve_left fun may => held (same ▸ may)
    -- what lives has lived before, and was asked to stop then
    · intro k _ c' there same living
      rcases evolves.slots k c' there with may | ⟨c, here, named, -, lives⟩
      · exact absurd (same ▸ may) held
      · obtain ⟨before, asked⟩ := lives living
        obtain ⟨stopping, own⟩ := rest.children k (List.getElem?_eq_some_iff.mp here).1 c here
          (named.trans same) before
        refine ⟨asked stopping, fun j found => ?_⟩
        rcases evolves.stored id j found with old | ⟨may, -⟩
        · exact own j old
        · exact absurd may held
    · intro call mem
      cases starts : call.rest.starts id with
      | false => rfl
      | true =>
        rcases evolves.calls call mem id starts with may | ⟨before, found, still⟩
        · exact absurd may held
        · exact still.symm.trans (rest.calls before found)
  · rw [State.spawned, ← Bool.not_eq_true, List.any_eq_true]
    rintro ⟨⟨c', k⟩, mem, spawns⟩
    have there : s'.slots[k]? = some c' := List.mem_zipIdx_iff_getElem?.mp mem
    simp only [Bool.and_eq_true, decide_eq_true_eq, Bool.or_eq_true] at spawns
    obtain ⟨⟨same, living⟩, cause⟩ := spawns
    rcases evolves.slots k c' there with may | ⟨c, here, named, -, lives⟩
    · exact held (same ▸ may)
    · have before := (lives living).1
      have lived : s.lives k = true := by
        rw [State.lives, here]
        exact decide_eq_true before
      rcases cause with exits | dead
      · -- the process that exits was asked to stop, so that none takes its place
        cases event with
        | exit j exit =>
          obtain rfl : j = k := of_decide_eq_true exits
          obtain ⟨stopping, -⟩ := rest.children j (List.getElem?_eq_some_iff.mp here).1 c here
            (named.trans same) before
          simp only [State.step, here, before, if_true, Option.some.injEq] at taken
          subst taken
          rw [exited_of_stopping here stopping] at there
          cases there
          cases living
        | _ => cases exits
      · simp [lived] at dead

end State

/-! ## Runs -/

theorem named_started [DecidableEq JobId] (registry : List Id) (jobs : List (Job Id JobId)) :
    (State.started registry jobs).Named := by
  let bare : State Id JobId :=
    ⟨registry, jobs, (jobs.filter Job.enabled).map Job.id, [], .empty, 0, [], 0, [], [], false,
      false⟩
  have empty : bare.Named := by
    intro id k found
    cases found
  have every : ∀ id ∈ registry, (fun _ => True : Id → Prop) id := fun _ _ => trivial
  have spawned := State.evolves_foldl_spawnEntry every (fun _ _ => false) bare
  simpa [State.started] using spawned.named empty

variable [DecidableEq JobId]

/-- An answer to a request to stop starts nothing. -/
theorem quiet_of_answers {w : Watch Id JobId} {id : Id} {event : Event Id JobId}
    (answered : w.answers id event = true) : w.supervisor.concerns id event = false := by
  cases event with
  | request request =>
    cases request with
    | stop other => rfl
    | stopAll => rfl
    | unregister other => rfl
    | _ => cases answered
  | resume i => rfl
  | _ => cases answered

/-- What holds of every watched run. -/
structure Watch.Sound (w : Watch Id JobId) : Prop where
  named : w.supervisor.Named
  halted : ∀ id, w.halted id = true → w.supervisor.AtRest id
  respawned : w.respawned = []

theorem Watch.Sound.step {w w' : Watch Id JobId} {event : Event Id JobId} (sound : w.Sound)
    (ok : AnswersAtRest w event) (taken : w.step event = some w') : w'.Sound := by
  rw [Watch.step, Option.map_eq_some_iff] at taken
  obtain ⟨s', taken, rfl⟩ := taken
  have stays (id : Id) (rest : w.supervisor.AtRest id)
      (quiet : w.supervisor.concerns id event = false) := rest.step sound.named quiet taken
  constructor
  case named => exact (State.evolves_step sound.named taken).named sound.named
  case halted =>
    intro id halted
    have cases_ : (w.halted id = true ∧ w.supervisor.concerns id event = false) ∨
        w.answers id event = true := by
      simpa using halted
    rcases cases_ with ⟨was, quiet⟩ | answered
    · exact (stays id (sound.halted id was) quiet).1
    · exact (stays id (ok id answered) (quiet_of_answers answered)).1
  case respawned =>
    have none_ : (s'.slots.map Slot.id).filter (fun id =>
        (w.halted id && !w.supervisor.concerns id event) &&
          w.supervisor.spawned event s' id) = [] := by
      apply List.filter_eq_nil_iff.mpr
      intro id _ spawned
      simp only [Bool.and_eq_true, Bool.not_eq_true'] at spawned
      obtain ⟨⟨was, quiet⟩, spawned⟩ := spawned
      exact nomatch ((stays id (sound.halted id was) quiet).2).symm.trans spawned
    change w.respawned ++ _ = []
    rw [sound.respawned, none_]
    rfl

/-- A stopped daemon stays stopped in every run in which each answer finds it at rest. -/
theorem stays_stopped {w : Watch Id JobId}
    (reached : (watch Id JobId).ReachableUnder AnswersAtRest w) : w.respawned = [] := by
  have sound : w.Sound := by
    refine reached.invariant ?_ fun t event t' sound ok taken => sound.step ok taken
    rintro t ⟨registry, jobs, rfl⟩
    exact ⟨named_started registry jobs, fun id halted => (nomatch halted), rfl⟩
  exact sound.respawned

/-- Two daemons crash; one is restarted by its timer and then stopped, and both are stopped. -/
theorem stays_stopped_restarted :
    ∃ w : Watch Bool Bool, (watch Bool Bool).ReachableUnder AnswersAtRest w ∧
      w.halted false = true ∧ w.supervisor.slots.length = 3 ∧ w.respawned = [] := by
  let schedule : List (Event Bool Bool) :=
    [.exit 0 .crash, .timer 0, .request (.stop false), .exit 0 .crash, .resume 0,
      .request (.restart true), .exit 1 .clean, .resume 0, .request .stopAll, .exit 2 .clean,
      .resume 0]
  let start : Watch Bool Bool := ⟨.started [false, true] [], [], fun _ => false, []⟩
  have ran : ((watch Bool Bool).exec start schedule).any (fun w =>
      decide (w.halted false = true ∧ w.supervisor.slots.length = 3)) = true := by decide +kernel
  have meets : (watch Bool Bool).Meets AnswersAtRest start schedule := by
    decide +kernel
  obtain ⟨w, executed, facts⟩ := (Option.any_eq_true _ _).mp ran
  have reached : (watch Bool Bool).ReachableUnder AnswersAtRest w :=
    ⟨_, ⟨_, _, rfl⟩, Machine.runsTo_of_exec meets executed⟩
  obtain ⟨halted, length⟩ := of_decide_eq_true facts
  exact ⟨w, reached, halted, length, stays_stopped reached⟩

/-- A stopped daemon comes back. It has crashed, and the request to stop it is answered while
its restart timer is pending. -/
theorem respawns :
    ∃ w : Watch Nat Nat, (watch Nat Nat).Reachable w ∧ w.halted 0 = true ∧ w.respawned = [0] := by
  have ran : ((watch Nat Nat).exec ⟨.started [0] [], [], fun _ => false, []⟩
      [.exit 0 .crash, .request (.stop 0), .timer 0]).any (fun w =>
        decide (w.halted 0 = true ∧ w.respawned = [0])) = true := by decide +kernel
  obtain ⟨w, executed, facts⟩ := (Option.any_eq_true _ _).mp ran
  obtain ⟨halted, respawned⟩ := of_decide_eq_true facts
  exact ⟨w, Machine.reachable_of_exec ⟨_, _, rfl⟩ executed, halted, respawned⟩

end OutpostPi.Daemon
