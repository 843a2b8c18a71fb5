import OutpostPi.Daemon.ChildOwnership

/-!
# Daemons at rest

A daemon is at rest when nothing is left in the supervisor that could spawn it: no restart timer,
no child that may crash, no request that goes on to start it. `AtRest.step` says that it stays at
rest, and is not spawned, until a request or a cron job starts it.
-/

set_option autoImplicit false

namespace OutpostPi.Daemon

open OutpostPi.Lib

section Model

variable {Id JobId : Type} [DecidableEq Id] [DecidableEq JobId]

/-! ## What starts a daemon -/

/-- The job that is fired wakes the daemon. -/
def State.wakesDaemon (s : State Id JobId) (id : Id) (job : JobId) (manual : Bool) : Bool :=
  s.wakes job manual && (s.firing job manual).any fun found => found.daemonId = id

/-- A start, restart or cron wake of the daemon. A `restart_all` concerns every daemon that is
registered by the time when it starts them again. -/
def State.concerns (s : State Id JobId) (id : Id) : Event Id JobId → Bool
  | .request (.start other) | .request (.restart other) => other = id && id ∈ s.registry
  | .request .startAll => id ∈ s.registry
  | .request .restartAll => true
  | .request (.cronRun job) => s.wakesDaemon id job true
  | .cron job => s.wakesDaemon id job false
  | _ => false

/-- What is left of a request starts the daemon. -/
def Continuation.starts (id : Id) : Continuation Id → Bool
  | .restart other => other = id
  | .startAll => true
  | .stopAll _ again => again
  | .stop | .unregister _ | .fireJob _ => false

/-- Nothing is left that could spawn the daemon. -/
structure State.AtRest (s : State Id JobId) (id : Id) : Prop where
  /-- A timer of a child that could not be spawned does nothing. -/
  timers : ∀ timer ∈ s.timers, ∀ c ∈ s.slots[timer.2]?, c.id = id → c.process = .failed
  /-- A child that lives was asked to stop, and belongs to the stored slot. -/
  children : ∀ k < s.slots.length, ∀ c ∈ s.slots[k]?, c.id = id → c.process = .live →
    c.stopping = true ∧ ∀ j ∈ s.slotOf id, j = k
  calls : ∀ call ∈ s.calls, call.rest.starts id = false

instance (s : State Id JobId) (id : Id) : Decidable (s.AtRest id) :=
  decidable_of_iff
    ((∀ timer ∈ s.timers, ∀ c ∈ s.slots[timer.2]?, c.id = id → c.process = .failed) ∧
      (∀ k < s.slots.length, ∀ c ∈ s.slots[k]?, c.id = id → c.process = .live →
        c.stopping = true ∧ ∀ j ∈ s.slotOf id, j = k) ∧
      ∀ call ∈ s.calls, call.rest.starts id = false)
    ⟨fun ⟨timers, children, calls⟩ => ⟨timers, children, calls⟩,
      fun rest => ⟨rest.timers, rest.children, rest.calls⟩⟩

/-- The child in a slot lives. -/
def State.lives (s : State Id JobId) (k : Nat) : Bool :=
  match s.slots[k]? with
  | some c => c.process = .live
  | none => false

/-- The process of the slot exits. -/
def Event.isExitOf (k : Nat) : Event Id JobId → Bool
  | .exit other _ => other = k
  | _ => false

/-- The step from `s` to `s'` spawns a process of the daemon: one that lives after it and did not
live before, or in the place of one that exits. -/
def State.spawned (s : State Id JobId) (event : Event Id JobId) (s' : State Id JobId) (id : Id) :
    Bool :=
  s'.slots.zipIdx.any fun (c, k) =>
    c.id = id && c.process = .live && (event.isExitOf k || !s.lives k)

end Model

variable {Id JobId : Type}

theorem Call.exited_rest (k : Nat) (call : Call Id) : (call.exited k).rest = call.rest := by
  rw [Call.exited]
  split <;> rfl

theorem Slot.spawn_id (c : Slot Id) : c.spawn.id = c.id := by
  rw [Slot.spawn]
  split <;> rfl

variable [DecidableEq Id]

namespace State

variable {s s' s'' : State Id JobId} {id : Id} {k : Nat} {c : Slot Id}

/-! ## What a step may change -/

/-- A stored slot is one of its daemon. -/
def Named (s : State Id JobId) : Prop :=
  ∀ id k, s.slotOf id = some k → ∃ c, s.slots[k]? = some c ∧ c.id = id

/-- Slots keep their daemon. Only the daemons of `free` get a child, a slot, a timer that could
spawn a child, or a request that starts them. -/
structure Evolves (free : Id → Prop) (s s' : State Id JobId) : Prop where
  kept : ∀ (k : Nat) (c : Slot Id), s.slots[k]? = some c →
    ∃ c', s'.slots[k]? = some c' ∧ c'.id = c.id
  stored : ∀ id k, s'.slotOf id = some k →
    s.slotOf id = some k ∨ free id ∧ ∃ c', s'.slots[k]? = some c' ∧ c'.id = id
  slots : ∀ (k : Nat) (c' : Slot Id), s'.slots[k]? = some c' → free c'.id ∨
    ∃ c, s.slots[k]? = some c ∧ c.id = c'.id ∧ (c.process = .failed → c'.process = .failed) ∧
      (c'.process = .live → c.process = .live ∧ (c.stopping = true → c'.stopping = true))
  timers : ∀ timer ∈ s'.timers, timer ∈ s.timers ∨
    ∀ c', s'.slots[timer.2]? = some c' → free c'.id ∨ c'.process = .failed
  calls : ∀ call ∈ s'.calls, ∀ id, call.rest.starts id = true → free id ∨
    ∃ before ∈ s.calls, before.rest.starts id = true

variable {free free' : Id → Prop}

theorem Evolves.named (evolves : Evolves free s s') (named : s.Named) : s'.Named := by
  intro id k found
  rcases evolves.stored id k found with old | ⟨-, new⟩
  · obtain ⟨c, here, same⟩ := named id k old
    obtain ⟨c', there, kept⟩ := evolves.kept k c here
    exact ⟨c', there, kept.trans same⟩
  · exact new

theorem Evolves.mono (weaker : ∀ id, free id → free' id) (evolves : Evolves free s s') :
    Evolves free' s s' where
  kept := evolves.kept
  stored id k found := (evolves.stored id k found).imp_right (.imp_left (weaker id))
  slots k c' here := (evolves.slots k c' here).imp_left (weaker c'.id)
  timers timer mem :=
    (evolves.timers timer mem).imp_right fun calm c' here => (calm c' here).imp_left (weaker c'.id)
  calls call mem id starts := (evolves.calls call mem id starts).imp_left (weaker id)

theorem Evolves.trans (first : Evolves free s s') (second : Evolves free s' s'') :
    Evolves free s s'' where
  kept k c here := by
    obtain ⟨c', there, same⟩ := first.kept k c here
    obtain ⟨c'', beyond, still⟩ := second.kept k c' there
    exact ⟨c'', beyond, still.trans same⟩
  stored id k found := by
    rcases second.stored id k found with old | new
    · rcases first.stored id k old with older | ⟨may, c', there, same⟩
      · exact .inl older
      · obtain ⟨c'', beyond, still⟩ := second.kept k c' there
        exact .inr ⟨may, c'', beyond, still.trans same⟩
    · exact .inr new
  slots k c'' beyond := by
    rcases second.slots k c'' beyond with may | ⟨c', there, same, failed, lives⟩
    · exact .inl may
    · rcases first.slots k c' there with may | ⟨c, here, same', failed', lives'⟩
      · exact .inl (same ▸ may)
      · refine .inr ⟨c, here, same'.trans same, fun was => failed (failed' was), fun alive => ?_⟩
        obtain ⟨before, asked⟩ := lives alive
        obtain ⟨long, asked'⟩ := lives' before
        exact ⟨long, fun was => asked (asked' was)⟩
  timers timer mem := by
    rcases second.timers timer mem with old | calm
    · rcases first.timers timer old with older | calm
      · exact .inl older
      · refine .inr fun c'' beyond => ?_
        rcases second.slots _ c'' beyond with may | ⟨c', there, same, failed, -⟩
        · exact .inl may
        · exact (calm c' there).imp (fun may => same ▸ may) failed
    · exact .inr calm
  calls call mem id starts := by
    rcases second.calls call mem id starts with may | ⟨before, found, still⟩
    · exact .inl may
    · exact first.calls before found id still

/-- Slots and what is stored may stay, and timers and requests go. -/
theorem evolves_of_eq (slots : s'.slots = s.slots) (children : s'.children = s.children)
    (timers : ∀ timer ∈ s'.timers, timer ∈ s.timers)
    (calls : ∀ call ∈ s'.calls, ∀ id, call.rest.starts id = true → free id ∨
      ∃ before ∈ s.calls, before.rest.starts id = true) : Evolves free s s' where
  kept k c here := ⟨c, by rw [slots, here], rfl⟩
  stored id k found := by
    rw [slotOf, children] at found
    exact .inl found
  slots k c' here := by
    rw [slots] at here
    exact .inr ⟨c', here, rfl, id, fun alive => ⟨alive, id⟩⟩
  timers timer mem := .inl (timers timer mem)
  calls := calls

theorem Evolves.refl (free : Id → Prop) (s : State Id JobId) : Evolves free s s :=
  evolves_of_eq rfl rfl (fun _ mem => mem) fun call mem _ starts => .inr ⟨call, mem, starts⟩

/-- More requests may be in progress. -/
theorem evolves_call (s : State Id JobId) (call : Call Id)
    (calm : ∀ id, call.rest.starts id = true → free id) :
    Evolves free s { s with calls := s.calls ++ [call] } := by
  refine evolves_of_eq rfl rfl (fun _ mem => mem) fun other mem id starts => ?_
  rcases List.mem_append.mp mem with old | new
  · exact .inr ⟨other, old, starts⟩
  · obtain rfl := List.mem_singleton.mp new
    exact .inl (calm id starts)

theorem evolves_setSlot {c' : Slot Id} (here : s.slots[k]? = some c) (same : c'.id = c.id)
    (calm : free c.id ∨ (c.process = .failed → c'.process = .failed) ∧
      (c'.process = .live → c.process = .live ∧ (c.stopping = true → c'.stopping = true))) :
    Evolves free s { s with slots := s.slots.set k c' } where
  kept j d there := by
    by_cases equal : j = k
    · subst equal
      rw [here] at there
      cases there
      exact ⟨c', getElem?_set_of_some here, same⟩
    · exact ⟨d, (List.getElem?_set_ne (Ne.symm equal)).trans there, rfl⟩
  stored _ _ found := .inl found
  slots j d there := by
    rcases of_getElem?_set there with ⟨rfl, rfl⟩ | ⟨-, before⟩
    · rw [same]
      exact calm.imp_right fun calm => ⟨c, here, rfl, calm⟩
    · exact .inr ⟨d, before, rfl, id, fun alive => ⟨alive, id⟩⟩
  timers timer mem := .inl mem
  calls call mem _ starts := .inr ⟨call, mem, starts⟩

theorem evolves_modifySlot (s : State Id JobId) (k : Nat) {f : Slot Id → Slot Id}
    (same : ∀ c, (f c).id = c.id)
    (calm : ∀ c, s.slots[k]? = some c → free c.id ∨
      (c.process = .failed → (f c).process = .failed) ∧
        ((f c).process = .live → c.process = .live ∧ (c.stopping = true → (f c).stopping = true))) :
    Evolves free s (s.modifySlot k f) := by
  cases here : s.slots[k]? with
  | none =>
    rw [modifySlot_of_none here]
    exact .refl free s
  | some c =>
    rw [modifySlot_of_some here]
    exact evolves_setSlot here (same c) (calm c here)

/-! ## Stopping and spawning -/

theorem evolves_ask (s : State Id JobId) (k : Nat) :
    Evolves free s (s.modifySlot k Slot.stop) := by
  apply evolves_modifySlot
  · intro c
    rw [Slot.stop]
    split <;> rfl
  · intro c _
    rw [Slot.stop]
    split
    · exact .inr ⟨id, fun alive => ⟨alive, id⟩⟩
    · exact .inr ⟨id, fun alive => ⟨alive, fun _ => rfl⟩⟩

theorem evolves_cancelTimer (s : State Id JobId) (k : Nat) : Evolves free s (s.cancelTimer k) := by
  rw [State.cancelTimer]
  split
  · exact evolves_of_eq rfl rfl (fun _ mem => (List.mem_filter.mp mem).1)
      fun call mem _ starts => .inr ⟨call, mem, starts⟩
  · exact .refl free s

theorem evolves_clearRestartTimer (s : State Id JobId) (k : Nat) :
    Evolves free s (s.clearRestartTimer k) :=
  (evolves_cancelTimer s k).trans (evolves_modifySlot _ k (fun _ => rfl) fun _ _ =>
    .inr ⟨id, fun alive => ⟨alive, id⟩⟩)

/-- A child is stopped, and what comes after that may start daemons. -/
theorem evolves_stop (s : State Id JobId) (k : Nat) {rest : Continuation Id}
    (calm : ∀ id, rest.starts id = true → free id) :
    Evolves free s ((s.clearRestartTimer k).awaitStop k rest) :=
  ((evolves_clearRestartTimer s k).trans (evolves_ask _ k)).trans (evolves_call _ _ calm)

theorem evolves_retire (s : State Id JobId) (id : Id) : Evolves free s (s.retire id) := by
  rw [State.retire]
  split
  · exact .refl free s
  · dsimp only
    split
    · exact (evolves_cancelTimer s _).trans (evolves_ask _ _)
    · exact evolves_cancelTimer s _

/-- A daemon is spawned in a new slot. -/
theorem evolves_spawnEntry (s : State Id JobId) (may : free id) :
    Evolves free s (s.spawnEntry id) := by
  refine (evolves_retire s id).trans ?_
  have slots : (s.spawnEntry id).slots = (s.retire id).slots ++ [(Slot.new id).spawn] := rfl
  have named : (Slot.new id).spawn.id = id := by simp [Slot.spawn, Slot.new]
  have older {k : Nat} {c : Slot Id} (here : (s.retire id).slots[k]? = some c) :
      (s.spawnEntry id).slots[k]? = some c := by
    rw [slots, List.getElem?_append_left (List.getElem?_eq_some_iff.mp here).1, here]
  constructor
  case kept => exact fun k c here => ⟨c, older here, rfl⟩
  case stored =>
    intro other k found
    obtain ⟨own, others⟩ := slotOf_spawnEntry s id
    by_cases equal : other = id
    · subst equal
      rw [own] at found
      cases found
      exact .inr ⟨may, _, by rw [slots, List.getElem?_concat_length], named⟩
    · rw [others other equal] at found
      rw [slotOf, (sameOthers_retire s id).2.1]
      exact .inl found
  case slots =>
    intro k c' there
    rw [slots] at there
    rcases of_getElem?_concat there with ⟨rfl, rfl⟩ | ⟨-, before⟩
    · exact .inl (named ▸ may)
    · exact .inr ⟨c', before, rfl, fun was => was, fun alive => ⟨alive, fun was => was⟩⟩
  case timers => exact fun timer mem => .inl mem
  case calls => exact fun call mem _ starts => .inr ⟨call, mem, starts⟩

theorem evolves_foldl_spawnEntry {ids : List Id} (may : ∀ id ∈ ids, free id)
    (skip : State Id JobId → Id → Bool) (s : State Id JobId) :
    Evolves free s (ids.foldl (fun s id => if skip s id then s else s.spawnEntry id) s) := by
  induction ids generalizing s with
  | nil => exact .refl free s
  | cons id ids ih =>
    have later := fun other mem => may other (List.mem_cons_of_mem id mem)
    rw [List.foldl_cons]
    split
    · exact ih later s
    · exact (evolves_spawnEntry s (may id List.mem_cons_self)).trans (ih later _)

theorem evolves_stopAllFrom (s : State Id JobId) (next : Nat) {restart : Bool}
    (may : restart = true → ∀ id, free id) : Evolves free s (s.stopAllFrom next restart) := by
  rw [State.stopAllFrom]
  split
  · exact evolves_stop s _ fun id starts => may starts id
  · split
    · next again => exact evolves_call s _ fun id _ => may again id
    · exact .refl free s

/-! ## Exits and timers -/

/-- A crash restarts the stored child of the daemon, at once or later. -/
theorem evolves_onChildExit (named : s.Named) {isCrash fresh : Bool}
    (calm : isCrash = true → free id ∨ fresh = false ∧
      ∀ j ∈ s.slotOf id, ∀ c ∈ s.slots[j]?, c.process = .failed) :
    Evolves free s (s.onChildExit id isCrash fresh) := by
  rw [State.onChildExit]
  split
  · exact .refl free s
  · split
    · exact .refl free s
    · next j stored =>
      obtain ⟨c, here, rfl⟩ := named id j stored
      split
      · exact .refl free s
      · next crash =>
        have calm := calm (by simpa using crash)
        split
        · next recycled =>
          have may : free c.id := by
            rcases calm with may | ⟨not_fresh, -⟩
            · exact may
            · cases not_fresh.symm.trans recycled
          rw [modifySlot_of_some here]
          exact evolves_setSlot here (Slot.spawn_id _) (.inl may)
        · rw [here]
          dsimp only
          split
          · exact .refl free s
          · have renewed : Evolves free s
                { s with slots := s.slots.set j { c with restartTimer := some s.nextTimer } } :=
              evolves_setSlot here rfl (.inr ⟨fun was => was, fun alive => ⟨alive, fun was => was⟩⟩)
            refine { renewed with timers := fun timer mem => ?_ }
            rcases List.mem_append.mp mem with old | new
            · exact .inl old
            · obtain rfl := List.mem_singleton.mp new
              refine .inr fun c' there => ?_
              obtain rfl : { c with restartTimer := some s.nextTimer } = c' :=
                Option.some.inj ((getElem?_set_of_some here).symm.trans there)
              exact calm.imp_right fun failed => failed.2 j stored c here

theorem evolves_emitExit (named : s.Named) (k : Nat) {isCrash fresh : Bool}
    (calm : isCrash = true → free id ∨ fresh = false ∧
      ∀ j ∈ s.slotOf id, ∀ c ∈ s.slots[j]?, c.process = .failed) :
    Evolves free s (s.emitExit k id isCrash fresh) := by
  refine (evolves_onChildExit named calm).trans ?_
  refine evolves_of_eq rfl rfl (fun _ mem => mem) fun call mem other starts => ?_
  obtain ⟨before, found, rfl⟩ := List.mem_map.mp mem
  rw [Call.exited_rest] at starts
  exact .inr ⟨before, found, starts⟩

end State

end OutpostPi.Daemon
