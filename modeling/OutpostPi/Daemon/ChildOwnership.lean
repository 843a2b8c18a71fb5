import OutpostPi.Daemon.Supervisor
import OutpostPi.Lib.Indexed

/-!
# The supervisor owns its children

A request that awaits an exit goes on without looking again at what has happened meanwhile:
`restart` spawns although its daemon was unregistered, `unregister` drops whatever slot is stored
by then, and neither heeds a shutdown. The handler of an exit finds its slot by the daemon and not
by the child. `owns_children` says that nothing else goes wrong.
-/

set_option autoImplicit false

namespace OutpostPi.Daemon

open OutpostPi.Lib

section Model

variable {Id JobId : Type} [DecidableEq Id] [DecidableEq JobId]

/-! ## Ownership -/

/-- A child that lives and was not asked to stop. -/
def Slot.Unasked (c : Slot Id) : Prop := c.process = .live ∧ c.stopping = false

instance (c : Slot Id) : Decidable c.Unasked := inferInstanceAs (Decidable (_ ∧ _))

/-- The rest of a control request, as opposed to a job that its schedule has fired. -/
def Call.isRequest (call : Call Id) : Bool := call.rest != .fireJob false

/-- The supervisor owns every child: of each daemon at most one was not asked to stop, and it is
that of the stored slot; without a request in progress every living child belongs to a registered
daemon or is stopping; and once `stop` has resolved none lives. -/
structure State.OwnsChildren (s : State Id JobId) : Prop where
  unique : ∀ (j k : Nat) (c d : Slot Id), s.slots[j]? = some c → s.slots[k]? = some d →
    c.id = d.id → c.Unasked → d.Unasked → j = k
  stored : ∀ (k : Nat) (c : Slot Id), s.slots[k]? = some c → c.Unasked → s.slotOf c.id = some k
  registered : (∀ call ∈ s.calls, call.isRequest = false) →
    ∀ (k : Nat) (c : Slot Id), s.slots[k]? = some c → c.process = .live →
      c.id ∈ s.registry ∨ c.stopping = true
  stopped : s.stopped = true →
    ∀ (k : Nat) (c : Slot Id), s.slots[k]? = some c → c.process ≠ .live

/-! ## Where it goes wrong -/

/-- The job would wake its daemon. -/
def State.wakes (s : State Id JobId) (id : JobId) (manual : Bool) : Bool :=
  match s.firing id manual with
  | none => false
  | some job => !s.runs job.daemonId && job.wake && decide (job.daemonId ∈ s.registry)

/-- The step reaches `_spawnEntry`. -/
def State.spawnsEntry (s : State Id JobId) : Event Id JobId → Bool
  | .request (.start id) | .request (.restart id) => decide (id ∈ s.registry) && !s.runs id
  | .request .startAll => s.registry.any fun id => !s.runs id
  | .request (.cronRun id) => s.wakes id true
  | .cron id => s.wakes id false
  | .resume i =>
    match s.calls[i]? with
    | some ⟨_, .restart _⟩ => true
    | some ⟨_, .startAll⟩ => s.registry.any fun id => !s.runs id
    | _ => false
  | _ => false

/-- The slot has a child that was not asked to stop or will have one when its timer fires. -/
def Slot.MayRun (c : Slot Id) : Prop :=
  c.Unasked ∨ c.restartTimer ≠ none ∧ c.process ≠ .failed

instance (c : Slot Id) : Decidable c.MayRun := inferInstanceAs (Decidable (_ ∨ _))

/-- A request may go on: a `restart` while its daemon is registered, an `unregister` where the
slot that is stored by then cannot run. -/
def Continuation.Safe (s : State Id JobId) : Continuation Id → Prop
  | .restart id => id ∈ s.registry
  | .unregister id => ∀ k ∈ s.slotOf id, ∀ c ∈ s.slots[k]?, ¬ c.MayRun
  | .stop | .stopAll _ _ | .startAll | .fireJob _ => True

instance (s : State Id JobId) : ∀ rest : Continuation Id, Decidable (rest.Safe s)
  | .restart id => inferInstanceAs (Decidable (id ∈ s.registry))
  | .unregister id =>
    inferInstanceAs (Decidable (∀ k ∈ s.slotOf id, ∀ c ∈ s.slots[k]?, ¬ c.MayRun))
  | .stop | .stopAll _ _ | .startAll | .fireJob _ => inferInstanceAs (Decidable True)

/-- A failed spawn may be reported for the stored slot, and a shutdown may begin when no child
that was replaced or forgotten is still exiting. -/
def Event.Safe (s : State Id JobId) : Event Id JobId → Prop
  | .resume i => ∀ call ∈ s.calls[i]?, call.rest.Safe s
  | .error k => s.shuttingDown = false → ∀ c ∈ s.slots[k]?, ∀ j ∈ s.slotOf c.id, j = k
  | .stop => ∀ k < s.slots.length, ∀ c ∈ s.slots[k]?,
    c.process = .live → s.slotOf c.id = some k
  | .request _ | .exit _ _ | .timer _ | .cron _ | .stopped _ | .closed _ => True

instance (s : State Id JobId) : ∀ event : Event Id JobId, Decidable (event.Safe s)
  | .resume i => inferInstanceAs (Decidable (∀ call ∈ s.calls[i]?, call.rest.Safe s))
  | .error k => inferInstanceAs (Decidable
    (s.shuttingDown = false → ∀ c ∈ s.slots[k]?, ∀ j ∈ s.slotOf c.id, j = k))
  | .stop => inferInstanceAs (Decidable
    (∀ k < s.slots.length, ∀ c ∈ s.slots[k]?, c.process = .live → s.slotOf c.id = some k))
  | .request _ | .exit _ _ | .timer _ | .cron _ | .stopped _ | .closed _ =>
    inferInstanceAs (Decidable True)

/-- What the code does not check: nothing reaches `_spawnEntry` once a shutdown has begun, and
the event is safe. -/
def Orderly (s : State Id JobId) (event : Event Id JobId) : Prop :=
  (s.shuttingDown = true → s.spawnsEntry event = false) ∧ event.Safe s

instance (s : State Id JobId) (event : Event Id JobId) : Decidable (Orderly s event) :=
  inferInstanceAs (Decidable (_ ∧ _))

end Model

variable {Id JobId : Type} [DecidableEq Id]

/-! ## The invariant -/

structure State.Owned (s : State Id JobId) : Prop where
  /-- A stored slot is one of its daemon. -/
  named : ∀ id k, s.slotOf id = some k → ∃ c, s.slots[k]? = some c ∧ c.id = id
  registered : ∀ id k, s.slotOf id = some k → id ∈ s.registry
  stored : ∀ (k : Nat) (c : Slot Id), s.slots[k]? = some c → c.Unasked → s.slotOf c.id = some k
  running : ∀ (k : Nat) (c : Slot Id), s.slots[k]? = some c → c.process = .live →
    c.state = .running
  /-- A pending timer is the one that its slot remembers. It can spawn a child only in a stored
  slot and only while no shutdown has begun. -/
  timed : ∀ t k, (t, k) ∈ s.timers → ∃ c, s.slots[k]? = some c ∧ c.restartTimer = some t ∧
    (c.process = .failed ∨
      c.process = .absent ∧ s.slotOf c.id = some k ∧ s.shuttingDown = false)
  fresh : ∀ t k, (t, k) ∈ s.timers → t < s.nextTimer
  up : s.shuttingDown = false → s.shutdowns = [] ∧ s.stopped = false
  /-- A call of `stop` awaits every living child until there is none. -/
  awaited : ∀ shutdown ∈ s.shutdowns, ∀ (k : Nat) (c : Slot Id), s.slots[k]? = some c →
    c.process = .live → ∃ waiting, shutdown = .stopping waiting ∧ k ∈ waiting
  ended : s.stopped = true →
    ∀ (k : Nat) (c : Slot Id), s.slots[k]? = some c → c.process ≠ .live

namespace State

variable {s : State Id JobId} {k : Nat} {c : Slot Id}

/-- The invariant is what ownership asks for. -/
theorem Owned.ownsChildren (owned : s.Owned) : s.OwnsChildren where
  unique j k c d here there same first second := by
    have one := owned.stored j c here first
    have two := owned.stored k d there second
    rw [same, two] at one
    exact (Option.some.inj one).symm
  stored := owned.stored
  registered _ k c here alive := by
    by_cases asked : c.stopping = true
    · exact .inr asked
    · have unasked : c.Unasked := ⟨alive, Bool.eq_false_of_not_eq_true asked⟩
      exact .inl (owned.registered _ k (owned.stored k c here unasked))
  stopped := owned.ended

/-! ## What leaves it intact -/

/-- Suspended requests are not part of it. -/
theorem Owned.withCalls (owned : s.Owned) (calls : List (Call Id)) :
    ({ s with calls := calls } : State Id JobId).Owned :=
  { owned with }

/-- Jobs do not matter to ownership. -/
theorem Owned.withJobs (owned : s.Owned) (jobs : List (Job Id JobId)) (cronJobs : List JobId) :
    ({ s with jobs := jobs, cronJobs := cronJobs } : State Id JobId).Owned :=
  { owned with }

/-- Dropping timers keeps the ownership. -/
theorem Owned.dropTimers (owned : s.Owned) (keep : Nat × Nat → Bool) :
    ({ s with timers := s.timers.filter keep } : State Id JobId).Owned :=
  ⟨owned.named, owned.registered, owned.stored, owned.running,
    fun t k mem => owned.timed t k (List.mem_filter.mp mem).1,
    fun t k mem => owned.fresh t k (List.mem_filter.mp mem).1, owned.up, owned.awaited,
    owned.ended⟩

/-- One slot may be rewritten, if it remains where a living child and a timer may be. -/
theorem Owned.setSlot (owned : s.Owned) (here : s.slots[k]? = some c) {c' : Slot Id}
    (same : c'.id = c.id)
    (alive : c'.process = .live → c'.state = .running ∧
      (c'.stopping = false → s.slotOf c.id = some k) ∧
      (c.process = .live ∨ s.shuttingDown = false))
    (timed : ∀ t, (t, k) ∈ s.timers → c'.restartTimer = some t ∧
      (c'.process = .failed ∨
        c'.process = .absent ∧ s.slotOf c.id = some k ∧ s.shuttingDown = false)) :
    ({ s with slots := s.slots.set k c' } : State Id JobId).Owned where
  -- for each part, the changed slot is told from the others
  named id j found := by
    obtain ⟨d, there, named⟩ := owned.named id j found
    by_cases equal : j = k
    · subst equal
      rw [here] at there
      cases there
      exact ⟨c', getElem?_set_of_some here, same.trans named⟩
    · exact ⟨d, (List.getElem?_set_ne (Ne.symm equal)).trans there, named⟩
  registered := owned.registered
  stored j d there unasked := by
    rcases of_getElem?_set there with ⟨rfl, rfl⟩ | ⟨-, before⟩
    · change s.slotOf d.id = some j
      rw [same]
      exact (alive unasked.1).2.1 unasked.2
    · exact owned.stored j d before unasked
  running j d there living := by
    rcases of_getElem?_set there with ⟨rfl, rfl⟩ | ⟨-, before⟩
    · exact (alive living).1
    · exact owned.running j d before living
  timed t j mem := by
    by_cases equal : j = k
    · subst equal
      obtain ⟨remembered, where_⟩ := timed t mem
      refine ⟨c', getElem?_set_of_some here, remembered, ?_⟩
      rw [same]
      exact where_
    · obtain ⟨d, there, rest⟩ := owned.timed t j mem
      exact ⟨d, (List.getElem?_set_ne (Ne.symm equal)).trans there, rest⟩
  fresh := owned.fresh
  up := owned.up
  -- a slot that lives now lived before, or no shutdown has begun
  awaited shutdown mem j d there living := by
    rcases of_getElem?_set there with ⟨rfl, rfl⟩ | ⟨-, before⟩
    · rcases (alive living).2.2 with was | up
      · exact owned.awaited shutdown mem j c here was
      · rw [(owned.up up).1] at mem
        cases mem
    · exact owned.awaited shutdown mem j d before living
  ended stopped j d there := by
    rcases of_getElem?_set there with ⟨rfl, rfl⟩ | ⟨-, before⟩
    · intro living
      rcases (alive living).2.2 with was | up
      · exact owned.ended stopped j c here was
      · rw [(owned.up up).2] at stopped
        cases stopped
    · exact owned.ended stopped j d before

/-- What a pending timer says of its slot. -/
theorem Owned.timed_at (owned : s.Owned) (here : s.slots[k]? = some c) {t : Nat}
    (mem : (t, k) ∈ s.timers) : c.restartTimer = some t ∧
      (c.process = .failed ∨
        c.process = .absent ∧ s.slotOf c.id = some k ∧ s.shuttingDown = false) := by
  obtain ⟨d, there, rest⟩ := owned.timed t k mem
  rw [here] at there
  cases there
  exact rest

/-! ## Stopping a child -/

omit [DecidableEq Id] in
/-- A slot that is there is modified in its place. -/
theorem modifySlot_of_some {f : Slot Id → Slot Id} (here : s.slots[k]? = some c) :
    s.modifySlot k f = { s with slots := s.slots.set k (f c) } := by
  rw [modifySlot, here]

omit [DecidableEq Id] in
/-- A slot that is not there cannot be modified. -/
theorem modifySlot_of_none {f : Slot Id → Slot Id} (absent : s.slots[k]? = none) :
    s.modifySlot k f = s := by
  rw [modifySlot, absent]

/-- A child may be asked to stop at any time. -/
theorem Owned.ask (owned : s.Owned) (k : Nat) : (s.modifySlot k Slot.stop).Owned := by
  cases here : s.slots[k]? with
  | none =>
    rw [modifySlot_of_none here]
    exact owned
  | some c =>
    rw [modifySlot_of_some here, Slot.stop]
    split
    · next absent =>
      refine owned.setSlot here rfl (fun living => ?_) fun t mem => owned.timed_at here mem
      rw [absent] at living
      cases living
    · refine owned.setSlot here rfl (fun living => ?_) fun t mem => owned.timed_at here mem
      exact ⟨owned.running k c here living, fun asked => (nomatch asked), .inl living⟩

/-- A cleared timer is pending no more. -/
theorem Owned.cancelTimer (owned : s.Owned) (k : Nat) :
    (s.cancelTimer k).Owned ∧ ∀ t, (t, k) ∉ (s.cancelTimer k).timers := by
  rw [State.cancelTimer]
  split
  · next t remembered =>
    refine ⟨owned.dropTimers _, fun other mem => ?_⟩
    obtain ⟨pending, differs⟩ := List.mem_filter.mp mem
    obtain ⟨c, here, timer, -⟩ := owned.timed other k pending
    rw [here, Option.bind_some, timer, Option.some.injEq] at remembered
    simp [remembered] at differs
  · next none_ =>
    refine ⟨owned, fun other mem => ?_⟩
    obtain ⟨c, here, timer, -⟩ := owned.timed other k mem
    rw [here, Option.bind_some, timer] at none_
    cases none_

/-- Clearing a restart timer keeps the ownership. -/
theorem Owned.clearRestartTimer (owned : s.Owned) (k : Nat) : (s.clearRestartTimer k).Owned := by
  obtain ⟨kept, cleared⟩ := owned.cancelTimer k
  rw [State.clearRestartTimer]
  cases here : (s.cancelTimer k).slots[k]? with
  | none =>
    rw [modifySlot_of_none here]
    exact kept
  | some c =>
    rw [modifySlot_of_some here]
    refine kept.setSlot here rfl (fun living => ?_) fun t mem => absurd mem (cleared t)
    exact ⟨kept.running k c here living, fun unasked => kept.stored k c here ⟨living, unasked⟩,
      .inl living⟩

/-- A cleared timer is gone. -/
theorem Owned.cleared (owned : s.Owned) (k t : Nat) :
    (t, k) ∉ (s.clearRestartTimer k).timers := by
  rw [State.clearRestartTimer, modifySlot]
  split <;> exact (owned.cancelTimer k).2 t

/-- Stopping a child and awaiting its exit keeps the ownership. -/
theorem Owned.awaitStop (owned : s.Owned) (k : Nat) (rest : Continuation Id) :
    (s.awaitStop k rest).Owned :=
  (owned.ask k).withCalls _

/-- No timer is started, and no child comes or goes. -/
structure Calms (s s' : State Id JobId) : Prop where
  timers : ∀ timer ∈ s'.timers, timer ∈ s.timers
  slots : ∀ j : Nat, (s'.slots[j]?).map (fun c => (c.id, c.process)) =
    (s.slots[j]?).map fun c => (c.id, c.process)
  children : s'.children = s.children

omit [DecidableEq Id] in
/-- A state is as calm as itself. -/
theorem Calms.refl (s : State Id JobId) : Calms s s := ⟨fun _ mem => mem, fun _ => rfl, rfl⟩

omit [DecidableEq Id] in
/-- Two calm steps are one. -/
theorem Calms.trans {s s' s'' : State Id JobId} (first : Calms s s') (second : Calms s' s'') :
    Calms s s'' :=
  ⟨fun timer mem => first.timers timer (second.timers timer mem),
    fun j => (second.slots j).trans (first.slots j), second.children.trans first.children⟩

omit [DecidableEq Id] in
/-- A change within a slot is calm, if it leaves the daemon and the process. -/
theorem calms_modifySlot (s : State Id JobId) (k : Nat) {f : Slot Id → Slot Id}
    (kept : ∀ c, (f c).id = c.id ∧ (f c).process = c.process) : Calms s (s.modifySlot k f) := by
  cases here : s.slots[k]? with
  | none =>
    rw [modifySlot_of_none here]
    exact .refl s
  | some c =>
    rw [modifySlot_of_some here]
    refine ⟨fun _ mem => mem, fun j => ?_, rfl⟩
    by_cases equal : j = k
    · subst equal
      change ((s.slots.set j (f c))[j]?).map _ = _
      rw [getElem?_set_of_some here, here, Option.map_some, Option.map_some, (kept c).1, (kept c).2]
    · change ((s.slots.set k (f c))[j]?).map _ = _
      rw [List.getElem?_set_ne (Ne.symm equal)]

omit [DecidableEq Id] in
/-- Asking a child to stop is calm. -/
theorem calms_ask (s : State Id JobId) (k : Nat) : Calms s (s.modifySlot k Slot.stop) := by
  refine calms_modifySlot s k fun c => ?_
  rw [Slot.stop]
  split <;> exact ⟨rfl, rfl⟩

omit [DecidableEq Id] in
/-- Cancelling a timer is calm. -/
theorem calms_cancelTimer (s : State Id JobId) (k : Nat) : Calms s (s.cancelTimer k) := by
  rw [State.cancelTimer]
  split
  · exact ⟨fun _ mem => (List.mem_filter.mp mem).1, fun _ => rfl, rfl⟩
  · exact .refl s

omit [DecidableEq Id] in
/-- Clearing a restart timer is calm. -/
theorem calms_clearRestartTimer (s : State Id JobId) (k : Nat) :
    Calms s (s.clearRestartTimer k) :=
  (calms_cancelTimer s k).trans (calms_modifySlot _ k fun _ => ⟨rfl, rfl⟩)

/-- The timers of many slots are cleared. -/
theorem Owned.foldl_clear (owned : s.Owned) (ks : List Nat) :
    (ks.foldl State.clearRestartTimer s).Owned ∧
      Calms s (ks.foldl State.clearRestartTimer s) ∧
      ∀ k ∈ ks, ∀ t, (t, k) ∉ (ks.foldl State.clearRestartTimer s).timers := by
  induction ks generalizing s with
  | nil => exact ⟨owned, .refl s, fun k mem => nomatch mem⟩
  | cons k ks ih =>
    obtain ⟨kept, calms, cleared⟩ := ih (owned.clearRestartTimer k)
    refine ⟨kept, (calms_clearRestartTimer s k).trans calms, fun j mem t pending => ?_⟩
    rcases List.mem_cons.mp mem with rfl | later
    · exact owned.cleared j t (calms.timers _ pending)
    · exact cleared j later t pending

/-- Many children are asked to stop. -/
theorem Owned.foldl_ask (owned : s.Owned) (ks : List Nat) :
    (ks.foldl (fun s k => s.modifySlot k Slot.stop) s).Owned ∧
      Calms s (ks.foldl (fun s k => s.modifySlot k Slot.stop) s) := by
  induction ks generalizing s with
  | nil => exact ⟨owned, .refl s⟩
  | cons k ks ih =>
    obtain ⟨kept, calms⟩ := ih (owned.ask k)
    exact ⟨kept, (calms_ask s k).trans calms⟩

/-! ## Spawning a child -/

/-- Slots and timers may change without anything else. -/
def SameOthers (s s' : State Id JobId) : Prop :=
  s'.registry = s.registry ∧ s'.children = s.children ∧ s'.shuttingDown = s.shuttingDown

omit [DecidableEq Id] in
/-- A slot is modified without anything else. -/
theorem sameOthers_modifySlot (s : State Id JobId) (k : Nat) (f : Slot Id → Slot Id) :
    SameOthers s (s.modifySlot k f) := by
  rw [modifySlot]
  split <;> exact ⟨rfl, rfl, rfl⟩

omit [DecidableEq Id] in
/-- A timer is cancelled without anything else. -/
theorem sameOthers_cancelTimer (s : State Id JobId) (k : Nat) :
    SameOthers s (s.cancelTimer k) := by
  rw [State.cancelTimer]
  split <;> exact ⟨rfl, rfl, rfl⟩

omit [DecidableEq Id] in
/-- Two steps that change slots and timers only are one. -/
theorem SameOthers.trans {s s' s'' : State Id JobId} (first : SameOthers s s')
    (second : SameOthers s' s'') : SameOthers s s'' :=
  ⟨second.1.trans first.1, second.2.1.trans first.2.1, second.2.2.trans first.2.2⟩

/-- A retired slot is all that changes. -/
theorem sameOthers_retire (s : State Id JobId) (id : Id) : SameOthers s (s.retire id) := by
  rw [retire]
  split
  · exact ⟨rfl, rfl, rfl⟩
  · dsimp only
    split
    · exact (sameOthers_cancelTimer s _).trans (sameOthers_modifySlot _ _ _)
    · exact sameOthers_cancelTimer s _

/-- A slot that is about to be replaced has no living child that was not asked to stop, and
no pending timer. -/
theorem Owned.retire (owned : s.Owned) (id : Id) :
    (s.retire id).Owned ∧ ∀ k, s.slotOf id = some k →
      (∀ t, (t, k) ∉ (s.retire id).timers) ∧
      ∀ c, (s.retire id).slots[k]? = some c → ¬ c.Unasked := by
  rw [State.retire]
  split
  · next none_ =>
    refine ⟨owned, fun k found => ?_⟩
    rw [none_] at found
    cases found
  · next k found =>
    obtain ⟨kept, cleared⟩ := owned.cancelTimer k
    dsimp only
    split
    · refine ⟨kept.ask k, fun j same => ?_⟩
      rw [found] at same
      cases same
      cases here : (s.cancelTimer k).slots[k]? with
      | none =>
        rw [modifySlot_of_none here]
        refine ⟨cleared, fun c there => ?_⟩
        rw [here] at there
        cases there
      | some c =>
        rw [modifySlot_of_some here]
        refine ⟨cleared, fun d there unasked => ?_⟩
        rw [getElem?_set_of_some here] at there
        cases there
        rw [Slot.stop] at unasked
        split at unasked
        · next absent => exact nomatch absent.symm.trans unasked.1
        · cases unasked.2
    · next idle =>
      refine ⟨kept, fun j same => ?_⟩
      rw [found] at same
      cases same
      refine ⟨cleared, fun c here unasked => idle ?_⟩
      rw [slotRuns, here]
      exact decide_eq_true (kept.running k c here unasked.1)

/-- The daemon's slot after `_spawnEntry`, and every other slot that is stored. -/
theorem slotOf_spawnEntry (s : State Id JobId) (id : Id) :
    (s.spawnEntry id).slotOf id = some (s.retire id).slots.length ∧
      ∀ other ≠ id, (s.spawnEntry id).slotOf other = s.slotOf other := by
  have same := (sameOthers_retire s id).2.1
  constructor
  · rw [slotOf, spawnEntry, OrderedMap.get?_set_self]
    rfl
  · intro other differs
    rw [slotOf, spawnEntry, OrderedMap.get?_set_of_ne differs, same]
    rfl

/-- A registered daemon may be spawned while no shutdown has begun. -/
theorem Owned.spawnEntry (owned : s.Owned) {id : Id} (registered : id ∈ s.registry)
    (up : s.shuttingDown = false) : (s.spawnEntry id).Owned := by
  obtain ⟨own, others⟩ := slotOf_spawnEntry s id
  obtain ⟨retired, idle⟩ := owned.retire id
  obtain ⟨sameRegistry, sameChildren, sameDown⟩ := sameOthers_retire s id
  have sameSlot (other : Id) : (s.retire id).slotOf other = s.slotOf other := by
    rw [slotOf, sameChildren, slotOf]
  have stillUp : (s.retire id).shuttingDown = false := sameDown.trans up
  have slots : (s.spawnEntry id).slots = (s.retire id).slots ++ [(Slot.new id).spawn] := rfl
  -- an older slot keeps what is stored for it, unless it is the one that is replaced
  have older {j : Nat} {c : Slot Id} (stored : (s.retire id).slotOf c.id = some j)
      (kept : s.slotOf id ≠ some j) : (s.spawnEntry id).slotOf c.id = some j := by
    rw [sameSlot] at stored
    by_cases equal : c.id = id
    · rw [equal] at stored
      exact absurd stored kept
    · rw [others c.id equal, stored]
  constructor
  case named =>
    intro other k found
    by_cases equal : other = id
    · subst equal
      rw [own] at found
      cases found
      exact ⟨_, by rw [slots, List.getElem?_concat_length], by simp [Slot.spawn, Slot.new]⟩
    · rw [others other equal, ← sameSlot] at found
      obtain ⟨c, here, named⟩ := retired.named other k found
      refine ⟨c, ?_, named⟩
      rw [slots, List.getElem?_append_left (List.getElem?_eq_some_iff.mp here).1, here]
  case registered =>
    intro other k found
    change other ∈ (s.retire id).registry
    by_cases equal : other = id
    · subst equal
      rwa [sameRegistry]
    · rw [others other equal, ← sameSlot] at found
      exact retired.registered other k found
  case stored =>
    intro k c here unasked
    rw [slots] at here
    rcases of_getElem?_concat here with ⟨rfl, rfl⟩ | ⟨-, before⟩
    · simpa [Slot.spawn, Slot.new] using own
    · refine older (retired.stored k c before unasked) fun replaced => ?_
      exact (idle k replaced).2 c before unasked
  case running =>
    intro k c here living
    rw [slots] at here
    rcases of_getElem?_concat here with ⟨rfl, rfl⟩ | ⟨-, before⟩
    · rfl
    · exact retired.running k c before living
  case timed =>
    intro t k mem
    obtain ⟨c, here, remembered, where_⟩ := retired.timed t k mem
    refine ⟨c, ?_, remembered, where_.imp_right ?_⟩
    · rw [slots, List.getElem?_append_left (List.getElem?_eq_some_iff.mp here).1, here]
    · rintro ⟨absent, stored, down⟩
      exact ⟨absent, older stored fun replaced => (idle k replaced).1 t mem, down⟩
  case fresh => exact retired.fresh
  case up => exact fun _ => retired.up stillUp
  case awaited =>
    intro shutdown mem
    change shutdown ∈ (s.retire id).shutdowns at mem
    rw [(retired.up stillUp).1] at mem
    cases mem
  case ended =>
    intro stopped
    change (s.retire id).stopped = true at stopped
    rw [(retired.up stillUp).2] at stopped
    cases stopped

/-- Spawning an entry leaves the registry and the shutdown. -/
theorem spawnEntry_others (s : State Id JobId) (id : Id) :
    (s.spawnEntry id).registry = s.registry ∧ (s.spawnEntry id).shuttingDown = s.shuttingDown :=
  ⟨(sameOthers_retire s id).1, (sameOthers_retire s id).2.2⟩

/-- Registered daemons may be spawned one after the other. -/
theorem Owned.foldl_spawnEntry {ids : List Id} (owned : s.Owned)
    (registered : ∀ id ∈ ids, id ∈ s.registry) (up : s.shuttingDown = false)
    (skip : State Id JobId → Id → Bool) :
    (ids.foldl (fun s id => if skip s id then s else s.spawnEntry id) s).Owned := by
  induction ids generalizing s with
  | nil => exact owned
  | cons id ids ih =>
    have later := fun other mem => registered other (List.mem_cons_of_mem id mem)
    rw [List.foldl_cons]
    split
    · exact ih owned later up
    · have first := owned.spawnEntry (registered id List.mem_cons_self) up
      obtain ⟨sameRegistry, sameDown⟩ := spawnEntry_others s id
      refine ih first (fun other mem => ?_) (sameDown.trans up)
      rw [sameRegistry]
      exact later other mem

/-- A supervisor that has just started owns what it runs. -/
theorem owned_started (registry : List Id) (jobs : List (Job Id JobId)) :
    (started registry jobs).Owned := by
  have empty : State.Owned (⟨registry, jobs, (jobs.filter Job.enabled).map Job.id, [], .empty, 0,
      [], 0, [], [], false, false⟩ : State Id JobId) := by
    constructor
    case up => exact fun _ => ⟨rfl, rfl⟩
    case ended => rintro ⟨⟩
    all_goals simp [slotOf, OrderedMap.get?, OrderedMap.empty]
  have spawned := empty.foldl_spawnEntry (fun _ (mem : _ ∈ registry) => mem) rfl fun _ _ => false
  simpa [started] using spawned

/-! ## Exits and timers -/

/-- A child that has a place may be spawned anew when its process is gone. -/
theorem Owned.respawn (owned : s.Owned) (here : s.slots[k]? = some c)
    (up : s.shuttingDown = false) (stored : s.slotOf c.id = some k)
    (none_ : ∀ t, (t, k) ∉ s.timers) {c' : Slot Id} (same : c'.id = c.id)
    (runs : c'.process = .live → c'.state = .running) :
    ({ s with slots := s.slots.set k c' } : State Id JobId).Owned :=
  owned.setSlot here same (fun living => ⟨runs living, fun _ => stored, .inr up⟩)
    fun t mem => absurd mem (none_ t)

/-- A crash is that of the stored slot. What `_onChildExit` then does is restart the child at
once, give up, or start a timer. -/
theorem Owned.onChildExit (owned : s.Owned) {isCrash fresh : Bool}
    (here : s.slots[k]? = some c) (gone : c.process ≠ .live)
    (none_ : ∀ t, (t, k) ∉ s.timers)
    (own : isCrash = true → s.shuttingDown = false → ∀ j ∈ s.slotOf c.id, j = k) :
    (s.onChildExit c.id isCrash fresh).Owned := by
  rw [State.onChildExit]
  split
  · exact owned
  · next up =>
    have up : s.shuttingDown = false := Bool.eq_false_of_not_eq_true up
    split
    · exact owned
    · next j stored =>
      split
      · exact owned
      · next crash =>
        have crash : isCrash = true := by simpa using crash
        -- an exit that restarts is that of the stored slot
        obtain rfl : j = k := own crash up j stored
        split
        · -- a recycle restarts at once
          rw [modifySlot_of_some here]
          refine owned.respawn here up stored none_ ?_ ?_
          · rw [Slot.spawn]
            split <;> rfl
          · rw [Slot.spawn]
            split
            · exact fun _ => rfl
            · exact fun living => absurd living gone
        · rw [here]
          dsimp only
          split
          · exact owned
          · -- the new timer is the only one of its slot
            have renewed : ({ s with
                slots := s.slots.set j { c with restartTimer := some s.nextTimer } } :
                State Id JobId).Owned :=
              owned.respawn here up stored none_ rfl fun living => absurd living gone
            refine { renewed with timed := ?_, fresh := ?_ }
            · intro t i mem
              rcases List.mem_append.mp mem with old | new
              · exact renewed.timed t i old
              · obtain ⟨rfl, rfl⟩ := Prod.mk.inj (List.mem_singleton.mp new)
                refine ⟨_, getElem?_set_of_some here, rfl, ?_⟩
                cases process : c.process with
                | live => exact absurd process gone
                | failed => exact .inl rfl
                | absent => exact .inr ⟨rfl, stored, up⟩
            · intro t i mem
              rcases List.mem_append.mp mem with old | new
              · exact Nat.lt_succ_of_lt (owned.fresh t i old)
              · obtain ⟨rfl, -⟩ := Prod.mk.inj (List.mem_singleton.mp new)
                exact Nat.lt_succ_self _

/-- The exit of a child does not shut the supervisor down. -/
theorem shuttingDown_onChildExit (s : State Id JobId) (id : Id) (isCrash fresh : Bool) :
    (s.onChildExit id isCrash fresh).shuttingDown = s.shuttingDown := by
  rw [State.onChildExit]
  split
  · rfl
  · split
    · rfl
    · split
      · rfl
      · split
        · exact (sameOthers_modifySlot s _ _).2.2
        · split
          · rfl
          · split <;> rfl

/-- A promise that awaits an exit resolves. No call of `stop` awaits a living child any less. -/
theorem Owned.settle (owned : s.Owned) (k : Nat)
    (gone : s.shuttingDown = true → ∀ c, s.slots[k]? = some c → c.process ≠ .live) :
    ({ s with
      calls := s.calls.map (Call.exited k)
      shutdowns := s.shutdowns.map (Shutdown.exited k) } : State Id JobId).Owned := by
  refine ⟨owned.named, owned.registered, owned.stored, owned.running, owned.timed, owned.fresh,
    fun up => ?_, fun shutdown mem j c here living => ?_, owned.ended⟩
  · obtain ⟨none_, running⟩ := owned.up up
    exact ⟨by simp [none_], running⟩
  · obtain ⟨before, found, rfl⟩ := List.mem_map.mp mem
    obtain ⟨waiting, rfl, awaits⟩ := owned.awaited before found j c here living
    refine ⟨_, rfl, List.mem_filter.mpr ⟨awaits, decide_eq_true ?_⟩⟩
    rintro rfl
    cases down : s.shuttingDown with
    | true => exact gone down c here living
    | false =>
      rw [(owned.up down).1] at found
      cases found

/-- The event `exit` of a child whose process is gone. -/
theorem Owned.emitExit (owned : s.Owned) {id : Id} {isCrash fresh : Bool}
    (here : s.slots[k]? = some c) (named : c.id = id) (gone : c.process ≠ .live)
    (none_ : ∀ t, (t, k) ∉ s.timers)
    (own : isCrash = true → s.shuttingDown = false → ∀ j ∈ s.slotOf id, j = k) :
    (s.emitExit k id isCrash fresh).Owned := by
  subst named
  refine (owned.onChildExit here gone none_ own).settle k fun down d there => ?_
  -- under a shutdown `_onChildExit` does nothing
  rw [shuttingDown_onChildExit] at down
  rw [State.onChildExit, if_pos down, here] at there
  cases there
  exact gone

/-- A living child goes, whatever it leaves behind. -/
theorem Owned.goes (owned : s.Owned) (here : s.slots[k]? = some c) (living : c.process = .live)
    {c' : Slot Id} {isCrash fresh : Bool} (same : c'.id = c.id) (gone : c'.process ≠ .live)
    (own : isCrash = true → s.shuttingDown = false → ∀ j ∈ s.slotOf c.id, j = k) :
    (State.emitExit { s with slots := s.slots.set k c' } k c.id isCrash fresh).Owned := by
  have none_ (t : Nat) (mem : (t, k) ∈ s.timers) : False := by
    obtain ⟨-, failed | ⟨absent, -⟩⟩ := owned.timed_at here mem
    · exact nomatch living.symm.trans failed
    · exact nomatch living.symm.trans absent
  have after := owned.setSlot here same (fun alive => absurd alive gone) fun t mem =>
    (none_ t mem).elim
  exact after.emitExit (getElem?_set_of_some here) same gone none_ own

/-- A process exits. Only a child that was not asked to stop crashes, so that the slot which
`_onChildExit` finds is its own. -/
theorem Owned.exited (owned : s.Owned) (here : s.slots[k]? = some c) (living : c.process = .live)
    (exit : Exit) : (s.exited k c exit).Owned := by
  rw [State.exited, modifySlot_of_some here]
  refine owned.goes here living rfl (fun alive => by cases alive) ?_
  intro crash _ j found
  have unasked : c.stopping = false := by
    rw [Bool.and_eq_true] at crash
    simpa using crash.1
  exact Option.some.inj (found.symm.trans (owned.stored k c here ⟨living, unasked⟩))

/-- A spawn fails. That the slot is the stored one is what the code takes for granted. -/
theorem Owned.failed (owned : s.Owned) (here : s.slots[k]? = some c) (living : c.process = .live)
    (own : s.shuttingDown = false → ∀ j ∈ s.slotOf c.id, j = k) : (s.failed k c).Owned := by
  rw [State.failed, modifySlot_of_some here]
  exact owned.goes here living rfl (fun alive => by cases alive) fun _ => own

/-- A restart timer fires. -/
theorem Owned.restartSlot (owned : s.Owned) {timer : Nat} (pending : (timer, k) ∈ s.timers) :
    (s.restartSlot timer k).Owned := by
  obtain ⟨c, here, remembered, where_⟩ := owned.timed timer k pending
  have none_ (t : Nat) (mem : (t, k) ∈ s.timers.filter fun other => other.1 ≠ timer) : False := by
    obtain ⟨mem, differs⟩ := List.mem_filter.mp mem
    have same := (owned.timed_at here mem).1
    rw [remembered, Option.some.injEq] at same
    simp [same] at differs
  have dropped := owned.dropTimers fun other => other.1 ≠ timer
  rw [State.restartSlot, modifySlot_of_some (show ({ s with
    timers := s.timers.filter fun other => other.1 ≠ timer } : State Id JobId).slots[k]? =
      some c from here)]
  rcases where_ with failed | ⟨absent, stored, up⟩
  · -- the handle of a failed spawn is never replaced
    refine dropped.setSlot here ?_ ?_ fun t mem => (none_ t mem).elim
    · simp [Slot.spawn, Slot.noteRestart, failed]
    · simp [Slot.spawn, Slot.noteRestart, failed]
  · refine dropped.respawn here up stored (fun t mem => none_ t mem) ?_ ?_
    · simp [Slot.spawn, Slot.noteRestart, absent]
    · simp [Slot.spawn, Slot.noteRestart, absent]

end State

end OutpostPi.Daemon
