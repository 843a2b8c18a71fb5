import OutpostPi.Relay.Observer

/-!
# Subscriptions of a live connection and the teardown of an older one

Subscriptions belong to a peer, not to a connection. The teardown of a connection that was the
peer's last clears them in both managers, some operations after the removal that found the peer
offline. A connection of the same peer that registers in between is live when the clearing
runs.

`targets_kept_iff` says when this loses what the new connection subscribed to: its targets
survive, once every teardown is over, exactly when no clearing of that manager was still ahead
at the moment of the subscription. `exists_live_unsubscribed` is a schedule in which both
managers lose them.
-/

set_option autoImplicit false

namespace OutpostPi.Relay.TeardownSubscriptions

open OutpostPi.Lib

/-- The two owners of subscriptions. -/
inductive Manager
  | presence
  | rooms
  deriving DecidableEq

namespace Manager

/-- The subscriptions that a manager owns. -/
def index : Manager → Services → SubscriptionIndex
  | .presence, services => services.presence.subscriptions
  | .rooms, services => services.rooms.subscriptions

/-- The operation that clears a subscriber. -/
def unsubscribeAll : Manager → PeerId → Op
  | .presence, subscriber => .presenceUnsubscribeAll subscriber
  | .rooms, subscriber => .roomsUnsubscribeAll subscriber

/-- The operation that replaces the targets of a subscriber. -/
def subscribe : Manager → PeerId → List PeerId → Op
  | .presence, subscriber, peers => .presenceSubscribe subscriber peers
  | .rooms, subscriber, peers => .roomsSubscribe subscriber peers

/-- The operation is a subscription or an unsubscription made for the peer. -/
def rewrites (m : Manager) (peerId : PeerId) : Op → Bool
  | .presenceSubscribe subscriber _ => m == .presence && subscriber == peerId
  | .presenceUnsubscribe subscriber _ => m == .presence && subscriber == peerId
  | .roomsSubscribe subscriber _ => m == .rooms && subscriber == peerId
  | .roomsUnsubscribe subscriber _ => m == .rooms && subscriber == peerId
  | _ => false

end Manager

/-- The clearing of a peer's subscriptions is still ahead of some call. -/
def ClearingAhead (m : Manager) (peerId : PeerId) (s : RelayState) : Prop :=
  s.Pending fun op => op = m.unsubscribeAll peerId

/-- The action keeps the connection in the table and is no subscription or unsubscription of its
peer. -/
def isUndisturbed (o : Observer) (m : Manager) (s : RelayState) : RelayAction → Bool
  | .call _ _ => true
  | .advance i choice =>
    o.isKept s (.advance i choice) && (s.tasks i).head?.all fun op => !m.rewrites o.peer op

/-- Every step is undisturbed. -/
def Undisturbed (o : Observer) (m : Manager) (s : RelayState) (a : RelayAction) : Prop :=
  isUndisturbed o m s a = true

instance (o : Observer) (m : Manager) (s : RelayState) (a : RelayAction) :
    Decidable (Undisturbed o m s a) :=
  inferInstanceAs (Decidable (_ = true))

section Step

variable {m : Manager} {o : Observer} {peerId : PeerId} {s : RelayState} {i : Nat} {op : Op}
  {rest new : List Op} {services services' : Services} {choice : PeerId}

/-- An undisturbed operation keeps the connection and rewrites nothing of its peer. -/
theorem undisturbed_advance (busy : s.tasks i = op :: rest)
    (undisturbed : Undisturbed o m s (.advance i choice)) :
    o.isKept s (.advance i choice) = true ∧ m.rewrites o.peer op = false := by
  simpa [Undisturbed, isUndisturbed, busy] using undisturbed

/-- What a peer watches changes only by its own subscriptions and by its clearing. -/
theorem watching_run (ran : services.run op choice = some (services', new))
    (notCleared : op ≠ m.unsubscribeAll peerId) (notRewritten : m.rewrites peerId op = false)
    (target : PeerId) :
    peerId ∈ (m.index services').subscribersOf target ↔
      peerId ∈ (m.index services).subscribersOf target := by
  -- an operation that rewrites a subscription does so for its own subscriber
  cases op with
  | presenceUnsubscribeAll subscriber =>
    obtain ⟨rfl, -⟩ := by simpa [Services.run] using ran
    cases m with
    | rooms => rfl
    | presence =>
      have other : peerId ≠ subscriber := fun same => notCleared (same ▸ rfl)
      simp [Manager.index, SubscriptionIndex.mem_removeAll, other]
  | roomsUnsubscribeAll subscriber =>
    obtain ⟨rfl, -⟩ := by simpa [Services.run] using ran
    cases m with
    | presence => rfl
    | rooms =>
      have other : peerId ≠ subscriber := fun same => notCleared (same ▸ rfl)
      simp [Manager.index, SubscriptionIndex.mem_removeAll, other]
  | presenceSubscribe subscriber peers =>
    obtain ⟨rfl, -⟩ := by simpa [Services.run] using ran
    cases m with
    | rooms => rfl
    | presence =>
      have other : subscriber ≠ peerId := by simpa [Manager.rewrites] using notRewritten
      simp [Manager.index, SubscriptionIndex.mem_replace, Ne.symm other]
  | roomsSubscribe subscriber peers =>
    obtain ⟨rfl, -⟩ := by simpa [Services.run] using ran
    cases m with
    | presence => rfl
    | rooms =>
      have other : subscriber ≠ peerId := by simpa [Manager.rewrites] using notRewritten
      simp [Manager.index, SubscriptionIndex.mem_replace, Ne.symm other]
  | presenceUnsubscribe subscriber peers =>
    obtain ⟨rfl, -⟩ := by simpa [Services.run] using ran
    cases m with
    | rooms => rfl
    | presence =>
      have other : subscriber ≠ peerId := by simpa [Manager.rewrites] using notRewritten
      simp [Manager.index, SubscriptionIndex.mem_remove, Ne.symm other]
  | roomsUnsubscribe subscriber peers =>
    obtain ⟨rfl, -⟩ := by simpa [Services.run] using ran
    cases m with
    | presence => rfl
    | rooms =>
      have other : subscriber ≠ peerId := by simpa [Manager.rewrites] using notRewritten
      simp [Manager.index, SubscriptionIndex.mem_remove, Ne.symm other]
  | publishToSubscribers subscribers frame =>
    simp only [Services.run] at ran
    split at ran
    · obtain ⟨rfl, -⟩ := by simpa using ran
      cases m <;> rfl
    · simp at ran
  | applyPatch peer roomId patch =>
    simp only [Services.run] at ran
    split at ran
    · obtain ⟨rfl, -⟩ := by simpa using ran
      rfl
    · obtain ⟨rfl, -⟩ := by simpa using ran
      cases m <;> rfl
  | _ =>
    obtain ⟨rfl, -⟩ := by simpa [Services.run] using ran
    cases m <;> rfl

/-- After its clearing a peer watches nothing. -/
theorem not_watching_of_cleared
    (ran : services.run (m.unsubscribeAll peerId) choice = some (services', new))
    (target : PeerId) : peerId ∉ (m.index services').subscribersOf target := by
  cases m with
  | presence =>
    obtain ⟨rfl, -⟩ := by simpa [Services.run, Manager.unsubscribeAll] using ran
    simp [Manager.index, SubscriptionIndex.mem_removeAll]
  | rooms =>
    obtain ⟨rfl, -⟩ := by simpa [Services.run, Manager.unsubscribeAll] using ran
    simp [Manager.index, SubscriptionIndex.mem_removeAll]

/-- The subscription gives its peer exactly the requested targets. -/
theorem watching_of_subscribed {peers : List PeerId}
    (ran : services.run (m.subscribe peerId peers) choice = some (services', new))
    (target : PeerId) :
    peerId ∈ (m.index services').subscribersOf target ↔ target ∈ peers := by
  cases m with
  | presence =>
    obtain ⟨rfl, -⟩ := by simpa [Services.run, Manager.subscribe] using ran
    simp [Manager.index, SubscriptionIndex.mem_replace]
  | rooms =>
    obtain ⟨rfl, -⟩ := by simpa [Services.run, Manager.subscribe] using ran
    simp [Manager.index, SubscriptionIndex.mem_replace]

/-- Publishing a transition clears only a peer that went offline. -/
private theorem clearing_of_transition {transition : PresenceTransition}
    (mem : m.unsubscribeAll peerId ∈ publishPresenceTransition transition) :
    ∃ sinceTs, transition = .becameOffline peerId sinceTs := by
  cases transition with
  | becameOffline peer sinceTs =>
    cases m with
    | presence =>
      obtain rfl : peerId = peer := by
        simpa [publishPresenceTransition, Manager.unsubscribeAll] using mem
      exact ⟨sinceTs, rfl⟩
    | rooms => simp [publishPresenceTransition, Manager.unsubscribeAll] at mem
  | becameOnline peer =>
    cases m <;> simp [publishPresenceTransition, Manager.unsubscribeAll] at mem
  | stayedOnline peer => simp [publishPresenceTransition] at mem
  | stayedOnlineAfterDisconnect peer => simp [publishPresenceTransition] at mem

/-- A clearing is put in front of a call only by a removal that left its peer offline. -/
theorem offline_of_new_clearing (ran : services.run op choice = some (services', new))
    (mem : m.unsubscribeAll peerId ∈ new) : services'.connections.isOnline peerId = false := by
  -- only the insertion and the removal of a connection start tasks that could clear
  cases op with
  | connectionsInsert peer room deviceId tx =>
    obtain ⟨rfl, rfl⟩ := by simpa [Services.run] using ran
    rw [afterInsert, List.mem_cons] at mem
    rcases mem with here | mem
    · cases m <;> simp [Manager.unsubscribeAll] at here
    · obtain ⟨sinceTs, transition⟩ := clearing_of_transition mem
      rw [PresenceState.onConnectionInserted] at transition
      split at transition <;> simp at transition
  | connectionsRemove peer roomId connId nowMs teardown =>
    obtain ⟨rfl, rfl⟩ := by simpa [Services.run] using ran
    -- the clearing comes with the transition to offline, or at the end of the rooms
    have offlined : (services.connections.remove peer roomId connId).2.peerOfflined = true ∧
        peer = peerId := by
      rw [afterRemove, List.mem_cons, List.mem_append] at mem
      rcases mem with here | mem | mem
      · cases m <;> simp [Manager.unsubscribeAll] at here
      · cases removed : PresenceState.onConnectionRemoved
            (services.connections.remove peer roomId connId).2 nowMs with
        | none => simp [removed] at mem
        | some transition =>
          simp only [removed, Option.map_some, Option.getD_some] at mem
          obtain ⟨sinceTs, rfl⟩ := clearing_of_transition mem
          simp only [PresenceState.onConnectionRemoved,
            ConnectionRegistry.peerId_remove] at removed
          split at removed
          · simp at removed
          · split at removed
            · next offlined =>
              obtain ⟨rfl, -⟩ := by simpa using removed
              exact ⟨offlined, rfl⟩
            · simp at removed
      · split at mem
        · next both =>
          rw [Bool.and_eq_true] at both
          refine ⟨both.2, ?_⟩
          cases m with
          | presence => simp [Manager.unsubscribeAll] at mem
          | rooms => simpa [Manager.unsubscribeAll, eq_comm] using mem
        · simp at mem
    obtain ⟨offlined, rfl⟩ := offlined
    rcases services.connections.remove_cases peer roomId connId with
      ⟨-, -, -, -, agrees⟩ | ⟨-, online, -⟩
    · simpa [offlined] using agrees
    · rw [online] at offlined
      exact absurd offlined (by simp)
  | onConnectionInserted peer room insert =>
    obtain ⟨rfl, rfl⟩ := by simpa [Services.run] using ran
    split at mem <;> cases m <;> simp [Manager.unsubscribeAll] at mem
  | onConnectionRemoved peer roomId remove nowMs =>
    obtain ⟨rfl, rfl⟩ := by simpa [Services.run] using ran
    split at mem <;> cases m <;> simp [Manager.unsubscribeAll] at mem
  | roomSubscribers peer frame =>
    obtain ⟨rfl, rfl⟩ := by simpa [Services.run] using ran
    rw [publish] at mem
    split at mem <;> cases m <;> simp [Manager.unsubscribeAll] at mem
  | presenceSubscribers peer frame =>
    obtain ⟨rfl, rfl⟩ := by simpa [Services.run] using ran
    rw [publish] at mem
    split at mem <;> cases m <;> simp [Manager.unsubscribeAll] at mem
  | publishToSubscribers subscribers frame =>
    simp only [Services.run] at ran
    split at ran
    · obtain ⟨rfl, rfl⟩ := by simpa using ran
      rw [publish] at mem
      split at mem <;> cases m <;> simp [Manager.unsubscribeAll] at mem
    · simp at ran
  | backfillCheck subscriber peer =>
    obtain ⟨rfl, rfl⟩ := by simpa [Services.run] using ran
    split at mem <;> cases m <;> simp [Manager.unsubscribeAll] at mem
  | applyPatch peer roomId patch =>
    simp only [Services.run] at ran
    split at ran
    · obtain ⟨rfl, rfl⟩ := by simpa using ran
      simp at mem
    · obtain ⟨rfl, rfl⟩ := by simpa using ran
      split at mem <;> cases m <;> simp [Manager.unsubscribeAll] at mem
  | _ =>
    obtain ⟨rfl, rfl⟩ := by simpa [Services.run] using ran
    simp at mem

/-- A request never begins with a clearing. -/
private theorem not_clearing_of_entry {request : Request} :
    ¬ ∃ op ∈ entry request, op = m.unsubscribeAll peerId := by
  rintro ⟨op, mem, rfl⟩
  cases request <;> cases m <;> simp [entry, Manager.unsubscribeAll] at mem

end Step

/-! ## Runs after a subscription -/

section Runs

variable {m : Manager} {o : Observer} {targets : List PeerId} {s s' : RelayState}
  {a : RelayAction}

/-- A connection that nothing ends stays in the table. -/
theorem present_step (present : (o.entry s.shared).isSome = true)
    (undisturbed : Undisturbed o m s a) (taken : relaySystem.machine.step s a = some s') :
    (o.entry s'.shared).isSome = true := by
  cases a with
  | call i request =>
    obtain ⟨-, rfl⟩ := TaskSystem.step_call taken
    exact present
  | advance i choice =>
    obtain ⟨op, rest, services, new, busy, ran, rfl⟩ := advance_cases taken
    exact entry_run busy ran present (undisturbed_advance busy undisturbed).1

/-- While the connection is live no further clearing of its peer is put ahead. -/
theorem clearingAhead_of_step (present : (o.entry s.shared).isSome = true)
    (undisturbed : Undisturbed o m s a) (taken : relaySystem.machine.step s a = some s')
    (ahead : ClearingAhead m o.peer s') : ClearingAhead m o.peer s := by
  have present' := present_step present undisturbed taken
  cases a with
  | call i request =>
    obtain ⟨-, rfl⟩ := TaskSystem.step_call taken
    exact (TaskSystem.pending_of_pending_call ahead).resolve_right not_clearing_of_entry
  | advance i choice =>
    obtain ⟨op, rest, services, new, busy, ran, rfl⟩ := advance_cases taken
    rcases TaskSystem.pending_of_pending_advance busy ahead with before | ⟨op', mem, rfl⟩
    · exact before
    · have offline := offline_of_new_clearing ran mem
      rw [isOnline_of_entry present'] at offline
      exact absurd offline (by simp)

/-- With no clearing ahead a step keeps what the peer watches. -/
theorem watching_step (present : (o.entry s.shared).isSome = true)
    (undisturbed : Undisturbed o m s a) (taken : relaySystem.machine.step s a = some s')
    (quiet : ¬ ClearingAhead m o.peer s)
    (watching : ∀ t ∈ targets, o.peer ∈ (m.index s.shared).subscribersOf t) :
    ¬ ClearingAhead m o.peer s' ∧
      ∀ t ∈ targets, o.peer ∈ (m.index s'.shared).subscribersOf t := by
  refine ⟨fun ahead => quiet (clearingAhead_of_step present undisturbed taken ahead), ?_⟩
  cases a with
  | call i request =>
    obtain ⟨-, rfl⟩ := TaskSystem.step_call taken
    exact watching
  | advance i choice =>
    obtain ⟨op, rest, services, new, busy, ran, rfl⟩ := advance_cases taken
    intro t mem
    refine (watching_run ran ?_ (undisturbed_advance busy undisturbed).2 t).mpr (watching t mem)
    rintro rfl
    exact quiet ⟨i, _, busy ▸ List.mem_cons_self, rfl⟩

/-- A clearing that is ahead either stays ahead or leaves the peer watching nothing, and then
the peer keeps watching nothing. -/
theorem cleared_step (undisturbed : Undisturbed o m s a)
    (taken : relaySystem.machine.step s a = some s')
    (doomed : ClearingAhead m o.peer s ∨ ∀ t, o.peer ∉ (m.index s.shared).subscribersOf t) :
    ClearingAhead m o.peer s' ∨ ∀ t, o.peer ∉ (m.index s'.shared).subscribersOf t := by
  cases a with
  | call i request =>
    obtain ⟨free, rfl⟩ := TaskSystem.step_call taken
    rcases doomed with ahead | nothing
    · exact Or.inl (TaskSystem.pending_call free ahead)
    · exact Or.inr nothing
  | advance i choice =>
    obtain ⟨op, rest, services, new, busy, ran, rfl⟩ := advance_cases taken
    by_cases clears : op = m.unsubscribeAll o.peer
    · subst clears
      exact Or.inr (not_watching_of_cleared ran)
    rcases doomed with ahead | nothing
    · exact Or.inl ((TaskSystem.pending_advance busy ahead).resolve_left clears)
    · refine Or.inr fun t watching => nothing t ?_
      exact (watching_run ran clears (undisturbed_advance busy undisturbed).2 t).mp watching

end Runs

/-- What a live connection subscribed to is still watched, once no clearing of its peer is ahead
any more, exactly when none was ahead at the moment of the subscription. -/
theorem targets_kept_iff {m : Manager} {o : Observer} {targets : List PeerId}
    {before s₀ s : RelayState} {a : RelayAction}
    (subscribes : before.Executes a (m.subscribe o.peer targets))
    (taken : relaySystem.machine.step before a = some s₀)
    (live : (o.entry s₀.shared).isSome = true)
    (run : relaySystem.machine.RunsTo (Undisturbed o m) s₀ s)
    (finished : ¬ ClearingAhead m o.peer s) :
    (∀ t ∈ targets, o.peer ∈ (m.index s.shared).subscribersOf t) ↔
      targets = [] ∨ ¬ ClearingAhead m o.peer before := by
  -- a subscription is executed by a task
  obtain ⟨i, choice, rfl⟩ : ∃ i choice, a = .advance i choice := by
    cases a with
    | call i request => exact absurd subscribes (by simp [TaskState.Executes])
    | advance i choice => exact ⟨i, choice, rfl⟩
  obtain ⟨op, rest, services, new, busy, ran, rfl⟩ := advance_cases taken
  obtain rfl : op = m.subscribe o.peer targets := by
    simpa [TaskState.Executes, busy] using subscribes
  have notClearing : m.subscribe o.peer targets ≠ m.unsubscribeAll o.peer := by
    cases m <;> simp [Manager.subscribe, Manager.unsubscribeAll]
  constructor
  · intro kept
    by_contra lost
    obtain ⟨some, notQuiet⟩ := not_or.mp lost
    have ahead : ClearingAhead m o.peer before := not_not.mp notQuiet
    obtain ⟨t, mem⟩ := List.exists_mem_of_ne_nil targets some
    -- a clearing that is ahead stays ahead until it has cleared
    have doomed := run.invariant
      (fun _ _ _ doomed undisturbed stepped => cleared_step undisturbed stepped doomed)
      (Or.inl ((TaskSystem.pending_advance busy ahead).resolve_left notClearing))
    rcases doomed with stillAhead | nothing
    · exact finished stillAhead
    · exact nothing t (kept t mem)
  · rintro (rfl | quiet)
    · simp
    -- no clearing is ahead, and none begins while the connection stands
    · have start : (o.entry services).isSome = true ∧
          ¬ ClearingAhead m o.peer ⟨services, Function.update before.tasks i (new ++ rest)⟩ ∧
          ∀ t ∈ targets, o.peer ∈ (m.index services).subscribersOf t := by
        refine ⟨live, fun ahead => ?_, fun t mem => (watching_of_subscribed ran t).mpr mem⟩
        rcases TaskSystem.pending_of_pending_advance busy ahead with was | ⟨op', mem, rfl⟩
        · exact quiet was
        · have offline := offline_of_new_clearing ran mem
          rw [isOnline_of_entry live] at offline
          exact absurd offline (by simp)
      have final := Machine.RunsTo.invariant (I := fun t : RelayState =>
          (o.entry t.shared).isSome = true ∧ ¬ ClearingAhead m o.peer t ∧
            ∀ target ∈ targets, o.peer ∈ (m.index t.shared).subscribersOf target)
        (fun _ _ _ was undisturbed stepped =>
          ⟨present_step was.1 undisturbed stepped,
            watching_step was.1 undisturbed stepped was.2.1 was.2.2⟩) run start
      exact final.2.2

/-! ## Two schedules -/

/-- The second connection of the Pi. -/
def reconnected : Observer := ⟨"pi", "main", 1⟩

/-- Two devices of the Pi's owner are connected, and one of them is about to subscribe. -/
def beforeSubscription : List RelayAction :=
  registration 0 "pi" "main" "desktop" ++
    [.call 1 (.register "pi" (plainRoom "main") "laptop" (.channel outboundQueueCapacity)),
      .advance 1 "", .advance 1 "", .call 1 (.subscribeRooms "pi" ["owner"])]

/-- The other device leaves, and the subscription of the one that stays survives. -/
theorem targets_kept_iff_sibling_left :
    ∃ before s₀ s, relaySystem.machine.exec initial beforeSubscription = some before ∧
      relaySystem.machine.step before (.advance 1 "") = some s₀ ∧
      relaySystem.machine.exec s₀
        [.call 0 (.teardown "pi" "main" 0 1000), .advance 0 "", .advance 0 ""] = some s ∧
      ((∀ t ∈ ["owner"], "pi" ∈ (Manager.rooms.index s.shared).subscribersOf t) ↔
        ["owner"] = [] ∨ ¬ ClearingAhead .rooms "pi" before) := by
  have passed : (relaySystem.machine.exec initial beforeSubscription).any (fun before =>
      decide ((before.tasks 1).head? = some (Manager.rooms.subscribe "pi" ["owner"])) &&
      (relaySystem.machine.step before (.advance 1 "")).any fun s₀ =>
        decide ((reconnected.entry s₀.shared).isSome = true ∧
          s₀.isFreeBelow 2 = true ∧ relaySystem.machine.Meets (Undisturbed reconnected .rooms) s₀
            [.call 0 (.teardown "pi" "main" 0 1000), .advance 0 "", .advance 0 ""]) &&
        (relaySystem.machine.exec s₀
          [.call 0 (.teardown "pi" "main" 0 1000), .advance 0 "", .advance 0 ""]).any fun s =>
            s.isFreeBelow 2) = true := by
    decide
  obtain ⟨before, executed, checked⟩ := (Option.any_eq_true _ _).mp passed
  rw [Bool.and_eq_true] at checked
  obtain ⟨s₀, taken, checked₀⟩ := (Option.any_eq_true _ _).mp checked.2
  rw [Bool.and_eq_true] at checked₀
  obtain ⟨s, left, free⟩ := (Option.any_eq_true _ _).mp checked₀.2
  obtain ⟨live, free₀, meets⟩ := of_decide_eq_true checked₀.1
  have idle₀ : s₀.Idle := TaskSystem.idle_of_exec 2 (by decide) init_initial.2
    (Machine.exec_append executed (Machine.exec_singleton taken)) free₀
  have idle : s.Idle := TaskSystem.idle_of_exec 2 (by decide) idle₀ left free
  have head : (before.tasks 1).head? = some (Manager.rooms.subscribe "pi" ["owner"]) :=
    of_decide_eq_true checked.1
  have subscribes : before.Executes (.advance (ε := Request) 1 "")
      (Manager.rooms.subscribe reconnected.peer ["owner"]) := head
  exact ⟨before, s₀, s, executed, taken, left, targets_kept_iff subscribes taken live
    (Machine.runsTo_of_exec meets left) (TaskState.not_pending_of_idle idle)⟩

/-- The Pi reconnects during the teardown of its only connection and subscribes. -/
def subscribedDuringTeardown : List RelayAction :=
  registration 0 "pi" "main" "laptop" ++
    [.call 0 (.teardown "pi" "main" 0 1000), .advance 0 ""] ++
    registration 1 "pi" "main" "laptop" ++
    [.call 1 (.subscribePresence "pi" ["owner"]), .advance 1 "", .advance 1 "",
      .call 1 (.subscribeRooms "pi" ["owner"]), .advance 1 ""]

/-- The rest of the teardown. -/
def restOfTeardown : List RelayAction :=
  [.advance 0 "", .advance 0 "", .advance 0 "", .advance 0 "", .advance 0 "", .advance 0 ""]

/-- A live connection can lose its subscriptions in both managers to the teardown of an older
one, though it stays connected and nobody unsubscribes it. -/
theorem exists_live_unsubscribed :
    ∃ s₀ s, relaySystem.machine.exec initial subscribedDuringTeardown = some s₀ ∧
      relaySystem.machine.exec s₀ restOfTeardown = some s ∧ s.Idle ∧
      (reconnected.entry s.shared).isSome = true ∧
      ∀ m, relaySystem.machine.Meets (Undisturbed reconnected m) s₀ restOfTeardown ∧
        "pi" ∈ (Manager.index m s₀.shared).subscribersOf "owner" ∧
        "pi" ∉ (Manager.index m s.shared).subscribersOf "owner" := by
  have passed : (relaySystem.machine.exec initial subscribedDuringTeardown).any (fun s₀ =>
      decide (relaySystem.machine.Meets (fun t a => Undisturbed reconnected .presence t a ∧
        Undisturbed reconnected .rooms t a) s₀ restOfTeardown) &&
      decide ("pi" ∈ (Manager.presence.index s₀.shared).subscribersOf "owner" ∧
        "pi" ∈ (Manager.rooms.index s₀.shared).subscribersOf "owner") &&
      (relaySystem.machine.exec s₀ restOfTeardown).any fun s =>
        decide (s.isFreeBelow 2 = true ∧ (reconnected.entry s.shared).isSome = true ∧
          "pi" ∉ (Manager.presence.index s.shared).subscribersOf "owner" ∧
          "pi" ∉ (Manager.rooms.index s.shared).subscribersOf "owner")) = true := by
    decide
  obtain ⟨s₀, executed₀, checked₀⟩ := (Option.any_eq_true _ _).mp passed
  rw [Bool.and_eq_true, Bool.and_eq_true] at checked₀
  obtain ⟨s, executed, checked⟩ := (Option.any_eq_true _ _).mp checked₀.2
  have meets := of_decide_eq_true checked₀.1.1
  obtain ⟨presence₀, rooms₀⟩ := of_decide_eq_true checked₀.1.2
  obtain ⟨free, live, presence, rooms⟩ := of_decide_eq_true checked
  have idle : s.Idle := TaskSystem.idle_of_exec 2 (by decide) init_initial.2
    (Machine.exec_append executed₀ executed) free
  refine ⟨s₀, s, executed₀, executed, idle, live, ?_⟩
  rintro (_ | _)
  · exact ⟨meets.mono fun _ _ both => both.1, presence₀, presence⟩
  · exact ⟨meets.mono fun _ _ both => both.2, rooms₀, rooms⟩

end OutpostPi.Relay.TeardownSubscriptions
