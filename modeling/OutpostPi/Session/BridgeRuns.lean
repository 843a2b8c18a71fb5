import OutpostPi.Session.BridgeInvariant

/-!
# Runs of a mesh node and its transport

Every step of the system moves the node by one of its functions (`Move`), each of which keeps the
invariant. In every run in order, the installed bridge is the router of the local broker whenever
no call is in progress, and what is superseded completes without touching it
(`router_is_bridge`). A superseded setup that constructs its remote after a newer bridge is
installed leaves that bridge without a router (`exists_lost_bridge`).
-/

set_option autoImplicit false

namespace OutpostPi.Session.MeshNode

open OutpostPi.Lib

/-! ## What a step does to the node -/

/-- One function of the node, under the conditions that the order of the run gives. -/
inductive Move (n : Node) : Node → Prop
  | stay : Move n n
  | attach (relay : Nat) (keypair : Bool) (caller : Option Nat) :
      Move n (n.attachBridge relay keypair caller)
  | detach : Move n n.detachBridge
  | resolve (i : Nat) (u : Setup) (ok : Bool) (here : n.setups[i]? = some u)
      (active : u.stage ≠ .ended)
      (clear : n.Superseded u → n.Reroutes u → ¬ n.Claimed u.broker) :
      Move n (n.resolve i u ok)
  | failover (leader : Bool) : Move n (n.failover leader)
  | reconnected : Move n { n.onReconnect with failovers := n.failovers - 1 }
  | failoverFailed
      (moved : ∀ x ∈ n.brokerRemote, ∀ r ∈ n.remotes[x]?, n.localBroker = some r.broker) :
      Move n { n with failovers := n.failovers - 1 }
  | selfRelayClosed : Move n n.detachBridgeKeepingParams
  | retry : Move n n.attemptRelayReconnect

theorem Move.routed {n n' : Node} (move : Move n n') (routed : n.Routed) : n'.Routed := by
  cases move with
  | stay => exact routed
  | attach relay keypair caller => exact routed.attachBridge relay keypair caller
  | detach => exact routed.detachBridge
  | resolve i u ok here active clear => exact routed.resolve here active clear ok
  | failover leader => exact routed.failover leader
  | reconnected =>
    apply routed.onReconnect.registered
    intro x bridge
    exact nomatch routed.onReconnect_brokerRemote.symm.trans bridge
  | failoverFailed moved => exact routed.registered _ moved
  | selfRelayClosed => exact routed.detachBridgeKeepingParams
  | retry => exact routed.attemptRelayReconnect

@[simp] theorem State.setPhase_node (s : State) (k : Nat) (phase : Phase) :
    (s.setPhase k phase).node = s.node := by
  unfold State.setPhase
  split <;> rfl

theorem State.attachCrossPcBridge_move (s : State) (keyId : Option String) :
    Move s.node (s.attachCrossPcBridge keyId).node := by
  unfold State.attachCrossPcBridge
  split
  · split
    · exact .stay
    · dsimp only
      split
      · exact .detach
      · exact .stay
  · exact .stay

theorem State.completeAttach_move (s : State) (k : Nat) (a : Attachment) (threw : Bool) :
    Move s.node (s.completeAttach k a threw).node := by
  unfold State.completeAttach
  dsimp only
  split
  · exact .stay
  · split
    · exact .stay
    · exact .detach

theorem State.detachCrossPcBridge_move (s : State) :
    Move s.node s.detachCrossPcBridge.node := by
  unfold State.detachCrossPcBridge
  dsimp only
  split
  · exact .detach
  · exact .stay

variable {s : State}

/-- The step of a setup after an await. -/
theorem of_resolve {s' : State} {i : Nat} {ok : Bool} (taken : step s (.resolve i ok) = some s') :
    ∃ u, s.node.setups[i]? = some u ∧ u.stage ≠ .ended ∧ s'.node = s.node.resolve i u ok := by
  simp only [step] at taken
  split at taken
  · cases taken
  · next u here =>
    split at taken
    · cases taken
    · next active =>
      cases taken
      refine ⟨u, here, active, ?_⟩
      cases u.caller with
      | none => rfl
      | some k => exact State.setPhase_node _ k _

theorem move_of_step {s' : State} {a : Action} (admitted : InOrder s a)
    (taken : step s a = some s') : Move s.node s'.node := by
  -- every action of the state is a move of its node, or leaves the node
  cases a with
  | attachBridge relay keypair =>
    cases taken
    exact .attach relay keypair none
  | detachBridge =>
    cases taken
    exact .detach
  | resolve i ok =>
    obtain ⟨u, here, active, eq⟩ := of_resolve taken
    rw [eq]
    exact .resolve i u ok here active (admitted u here)
  | failover leader =>
    cases taken
    exact .failover leader
  | reconnected =>
    simp only [step] at taken
    split at taken <;> cases taken
    exact .reconnected
  | failoverFailed =>
    simp only [step] at taken
    split at taken <;> cases taken
    exact .failoverFailed admitted
  | selfRelayClosed =>
    simp only [step] at taken
    split at taken <;> cases taken
    exact .selfRelayClosed
  | attemptRelayReconnect =>
    cases taken
    exact .retry
  | transport relay relayUrl stopping disposed =>
    cases taken
    exact .stay
  | attachCrossPcBridge keyId =>
    cases taken
    exact s.attachCrossPcBridge_move keyId
  | callAttachBridge k =>
    simp only [step] at taken
    split at taken
    · cases taken
    · split at taken <;> cases taken
      exact .attach _ _ _
  | completeAttach k =>
    simp only [step] at taken
    split at taken
    · cases taken
    · next a here =>
      split at taken
      · next threw _ =>
        cases taken
        rw [State.setPhase_node]
        exact s.completeAttach_move k a threw
      · cases taken
  | detachCrossPcBridge =>
    cases taken
    exact s.detachCrossPcBridge_move

/-! ## Runs in order -/

theorem Node.Routed.joined (leader selfManaged : Bool) : (Node.joined leader selfManaged).Routed where
  hosted := by cases leader <;> simp [Node.joined]
  parameters := by cases selfManaged <;> simp [Node.joined]
  begun := fun _ _ here => nomatch here
  distinct := fun _ _ _ _ here => nomatch here
  settled := fun _ _ here => nomatch here
  home := fun _ _ here => nomatch here
  held := fun here => nomatch here
  vacant := fun _ _ here => nomatch here
  installed := fun _ here => nomatch here
  constructed := fun _ _ _ here => nomatch here
  apart := fun _ _ _ _ _ here => nomatch here
  handing := fun _ _ _ here => nomatch here
  owned := fun _ _ _ here => nomatch here

theorem routed_of_reachable (reached : system.ReachableUnder InOrder s) : s.node.Routed := by
  refine reached.invariant (I := fun s => s.node.Routed) ?_ ?_
  · rintro t ⟨leader, selfManaged, rfl⟩
    exact Node.Routed.joined leader selfManaged
  · intro t a t' routed admitted taken
    exact (move_of_step admitted taken).routed routed

/-- With no call in progress, the router of the local broker is the bridge. -/
theorem Node.Routed.router_of_quiet {n : Node} (routed : n.Routed) (quiet : n.Quiet) :
    n.brokerRemote = n.localBroker.bind n.routers := by
  cases bridge : n.brokerRemote with
  | some x =>
    obtain ⟨r, -, -, moved, routes⟩ := routed.installed x bridge
    have hosted : n.localBroker = some r.broker :=
      moved.resolve_right (quiet.2 ▸ Nat.lt_irrefl 0)
    rw [hosted, Option.bind_some, routes hosted]
  | none =>
    cases hosted : n.localBroker with
    | none => rfl
    | some b =>
      rw [Option.bind_some]
      cases routes : n.routers b with
      | none => rfl
      | some x =>
        rcases routed.owned b x hosted routes with installed | ⟨i, u, here, built⟩
        · exact nomatch bridge.symm.trans installed
        · exact absurd (quiet.1 u (List.mem_of_getElem? here)) (Node.ne_ended_of_remote built)

/-- What is superseded completes by this action, with a newer bridge installed: any bridge is
newer than a setup that is superseded and has not ended. -/
def State.Outlives (s : State) (remote : RemoteId) : Action → Prop
  | .resolve i _ => ∃ u ∈ s.node.setups[i]?, s.node.Superseded u
  | .completeAttach k => ∃ a ∈ s.attachments[k]?, s.Overtaken k a ∧ s.Later a remote
  | _ => False

/-- A setup that is not current leaves the installed bridge. -/
theorem Node.resolve_brokerRemote {n : Node} {i : Nat} {u : Setup}
    (superseded : n.Superseded u) (ok : Bool) :
    (n.resolve i u ok).brokerRemote = n.brokerRemote ∧
      (n.resolve i u ok).localBroker = n.localBroker := by
  have detached : ∀ x, (n.detachRemote x).brokerRemote = n.brokerRemote ∧
      (n.detachRemote x).localBroker = n.localBroker := by
    intro x
    unfold Node.detachRemote
    split
    · exact ⟨rfl, rfl⟩
    · split <;> exact ⟨rfl, rfl⟩
  obtain ⟨epoch, params, broker, caller, stage⟩ := u
  cases stage with
  | identity =>
    simp only [Node.resolve, Node.proceed]
    split
    · exact ⟨rfl, rfl⟩
    · split <;> exact ⟨rfl, rfl⟩
  | connecting =>
    simp only [Node.resolve, Node.proceed]
    split
    · exact ⟨rfl, rfl⟩
    · split <;> exact ⟨rfl, rfl⟩
  | keypair relay =>
    simp only [Node.resolve, Node.proceed]
    split
    · exact ⟨rfl, rfl⟩
    · split <;> exact ⟨rfl, rfl⟩
  | discovering relay => exact ⟨rfl, rfl⟩
  | built relay x =>
    have stale : n.isBridgeEpochCurrent ⟨epoch, params, broker, caller, .built relay x⟩ relay =
        false := superseded
    simp only [Node.resolve, Node.proceed, stale]
    exact detached x
  | ended => exact ⟨rfl, rfl⟩

/-- Remotes keep their brokers after an await. -/
theorem Node.resolve_remotes {n : Node} {i : Nat} {u : Setup} {x : RemoteId} {r : Remote}
    (here : n.remotes[x]? = some r) (ok : Bool) :
    ∃ m, (n.resolve i u ok).remotes[x]? = some m ∧ m.broker = r.broker := by
  have detached : ∀ y, ∃ m, (n.detachRemote y).remotes[x]? = some m ∧ m.broker = r.broker := by
    intro y
    unfold Node.detachRemote
    split
    · exact ⟨r, here, rfl⟩
    · next broker _ object there =>
      split
      · exact ⟨r, here, rfl⟩
      · by_cases same : y = x
        · subst same
          cases here.symm.trans there
          exact ⟨_, getElem?_set_of_some here, rfl⟩
        · exact ⟨r, (List.getElem?_set_ne same).trans here, rfl⟩
  obtain ⟨epoch, params, broker, caller, stage⟩ := u
  cases stage with
  | identity =>
    simp only [Node.resolve, Node.proceed]
    split
    · exact ⟨r, here, rfl⟩
    · split <;> exact ⟨r, here, rfl⟩
  | connecting =>
    simp only [Node.resolve, Node.proceed]
    split
    · exact ⟨r, here, rfl⟩
    · split <;> exact ⟨r, here, rfl⟩
  | keypair relay =>
    simp only [Node.resolve, Node.proceed]
    split
    · exact ⟨r, here, rfl⟩
    · split <;> exact ⟨r, here, rfl⟩
  | discovering relay =>
    exact ⟨r, (List.getElem?_append_left (List.getElem?_eq_some_iff.mp here).1).trans here, rfl⟩
  | built relay y =>
    simp only [Node.resolve, Node.proceed]
    split
    · exact detached y
    · exact ⟨r, here, rfl⟩
  | ended => exact ⟨r, here, rfl⟩

/-- What is superseded leaves a newer bridge installed, live and routed. -/
def State.Keeps (s s' : State) (remote : RemoteId) : Prop :=
  s'.node.brokerRemote = some remote ∧
    (∃ r ∈ s'.node.remotes[remote]?, r.detached = false) ∧
      ∀ b, s.node.localBroker = some b → s.node.routers b = some remote →
        s'.node.localBroker = some b ∧ s'.node.routers b = some remote

theorem keeps_of_outlives {s' : State} {a : Action} {remote : RemoteId}
    (reached : system.ReachableUnder InOrder s) (admitted : InOrder s a)
    (taken : system.step s a = some s') (bridge : s.node.brokerRemote = some remote)
    (outlives : s.Outlives remote a) : s.Keeps s' remote := by
  have routed := routed_of_reachable reached
  have routed' : s'.node.Routed := (move_of_step admitted taken).routed routed
  cases a with
  | resolve i ok =>
    obtain ⟨u, here, superseded⟩ := outlives
    obtain ⟨v, there, -, eq⟩ := of_resolve taken
    cases Option.some.inj (there.symm.trans here)
    obtain ⟨kept, hosted⟩ := Node.resolve_brokerRemote superseded ok (i := i)
    rw [← eq] at kept hosted
    have bridge' := kept.trans bridge
    obtain ⟨r, found, live, -, routes⟩ := routed'.installed remote bridge'
    refine ⟨bridge', ⟨r, found, live⟩, fun b localBroker routesBefore => ?_⟩
    -- The remote has kept its broker, which is the local one.
    obtain ⟨r₀, found₀, home⟩ := routed.home b remote routesBefore
    obtain ⟨m, found', broker⟩ := Node.resolve_remotes (i := i) (u := u) found₀ ok
    rw [← eq] at found'
    cases Option.some.inj (found.symm.trans found')
    have hosted' : s'.node.localBroker = some r.broker := by
      rw [hosted, localBroker, broker, home]
    rw [broker, home] at hosted' routes
    exact ⟨hosted', routes hosted'⟩
  | completeAttach k =>
    obtain ⟨attachment, here, overtaken, later⟩ := outlives
    exact absurd later (admitted attachment here overtaken remote bridge)
  | _ => exact outlives.elim

/-! ## The claim about all runs -/

/-- The router of the local broker is the bridge. In a run in order, `brokerRemote` is null
exactly when the local broker has no router, and otherwise is its router, whenever no call of the
node is in progress; and what is superseded completes without detaching or replacing a newer
bridge. -/
theorem router_is_bridge {s : State} (reached : system.ReachableUnder InOrder s) :
    (s.node.Quiet → s.node.brokerRemote = s.node.localBroker.bind s.node.routers) ∧
      ∀ a s' remote, InOrder s a → system.step s a = some s' →
        s.node.brokerRemote = some remote → s.Outlives remote a → s.Keeps s' remote :=
  ⟨(routed_of_reachable reached).router_of_quiet, fun _ _ _ admitted taken bridge outlives =>
    keeps_of_outlives reached admitted taken bridge outlives⟩

/-- A setup is superseded at its identity, the next one installs its bridge, and a failover
replaces that. -/
private def orderly : List Action :=
  [.attachBridge 1 false, .detachBridge, .attachBridge 2 true, .resolve 1 true, .resolve 1 true,
    .resolve 0 true, .failover true, .reconnected, .resolve 2 true, .resolve 2 true]

theorem router_is_bridge_failed_over :
    ∃ s, system.ReachableUnder InOrder s ∧ s.node.Quiet ∧ s.node.localBroker = some 1 ∧
      s.node.brokerRemote = some 1 ∧
      s.node.brokerRemote = s.node.localBroker.bind s.node.routers := by
  have ran : ((system.exec (.joined true false) orderly).any fun s =>
      decide (s.node.Quiet ∧ s.node.localBroker = some 1 ∧ s.node.brokerRemote = some 1)) =
        true := by
    decide +kernel
  have meets : system.Meets InOrder (.joined true false) orderly := by decide +kernel
  obtain ⟨s, executed, facts⟩ := (Option.any_eq_true _ _).mp ran
  obtain ⟨quiet, hosted, bridge⟩ := of_decide_eq_true facts
  have reached : system.ReachableUnder InOrder s :=
    ⟨_, ⟨true, false, rfl⟩, Machine.runsTo_of_exec meets executed⟩
  exact ⟨s, reached, quiet, hosted, bridge, (router_is_bridge reached).1 quiet⟩

/-- Two setups overlap, and the superseded one constructs its remote last. -/
private def overlapping : List Action :=
  [.attachBridge 1 true, .detachBridge, .attachBridge 2 true, .resolve 1 true, .resolve 1 true,
    .resolve 0 true, .resolve 0 true]

/-- The transport attaches on a second connection while its first attachment is in progress. -/
private def reconnecting : List Action :=
  [.transport (some 1) (some "relay") false false, .attachCrossPcBridge (some "key"),
    .callAttachBridge 0, .transport none none false false, .detachCrossPcBridge,
    .transport (some 2) (some "relay") false false, .attachCrossPcBridge (some "key"),
    .callAttachBridge 1, .resolve 1 true, .resolve 1 true, .completeAttach 1,
    .resolve 0 true, .resolve 0 true]

/-- A quiet node has a bridge that is not the router of its broker, and the end of a superseded
attachment detaches a newer bridge. -/
theorem exists_lost_bridge :
    (∃ s, system.Reachable s ∧ s.node.Quiet ∧
      s.node.brokerRemote ≠ s.node.localBroker.bind s.node.routers) ∧
    ∃ s a s' remote, system.Reachable s ∧ system.step s a = some s' ∧
      s.node.brokerRemote = some remote ∧ s.Outlives remote a ∧
        s'.node.brokerRemote = none := by
  constructor
  · have ran : ((system.exec (.joined true false) overlapping).any fun s =>
        decide (s.node.Quiet ∧
          s.node.brokerRemote ≠ s.node.localBroker.bind s.node.routers)) = true := by
      decide +kernel
    obtain ⟨s, executed, facts⟩ := (Option.any_eq_true _ _).mp ran
    obtain ⟨quiet, lost⟩ := of_decide_eq_true facts
    exact ⟨s, Machine.reachable_of_exec ⟨true, false, rfl⟩ executed, quiet, lost⟩
  · have ran : ((system.exec (.joined true false) reconnecting).any fun s =>
        decide (s.node.brokerRemote = some 0 ∧
          (∃ a ∈ s.attachments[0]?, s.Overtaken 0 a ∧ s.Later a 0) ∧
          ((step s (.completeAttach 0)).any fun s' =>
            decide (s'.node.brokerRemote = none)) = true)) = true := by
      decide +kernel
    obtain ⟨s, executed, facts⟩ := (Option.any_eq_true _ _).mp ran
    obtain ⟨bridge, outlives, goes⟩ := of_decide_eq_true facts
    obtain ⟨s', taken, gone⟩ := (Option.any_eq_true _ _).mp goes
    exact ⟨s, .completeAttach 0, s', 0, Machine.reachable_of_exec ⟨true, false, rfl⟩ executed,
      taken, bridge, outlives, of_decide_eq_true gone⟩

end OutpostPi.Session.MeshNode
