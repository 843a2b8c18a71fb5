import OutpostPi.Lib.Map
import OutpostPi.Session.MeshBridge

/-!
# Who holds the router of a broker

The invariant `Routed` of a mesh node: an installed bridge is the router of its broker while that
broker is the local one, a setup that is about to install its remote has made it the router, and
the local broker has no router besides these. Each function of the node keeps it. Two of them do
so under a condition, which `InOrder` gives: a setup constructs or detaches its remote, and the
registration of a failover fails.
-/

set_option autoImplicit false

namespace OutpostPi.Session.MeshNode

open OutpostPi.Lib

/-- The remote that a setup has constructed and not handed over. -/
def Stage.remote : Stage → Option RemoteId
  | .built _ remote => some remote
  | _ => none

namespace Node

variable {n : Node} {i : Nat} {u : Setup} {x : RemoteId} {r : Remote}

/-- Numbers in use are below the next ones, and no two setups have their epoch in common. -/
structure Numbered (n : Node) : Prop where
  hosted : ∀ (b : BrokerId), n.localBroker = some b → b < n.nextBroker
  parameters : ∀ (p : BridgeParams), n.bridgeParams = some p → p.object < n.nextObject
  begun : ∀ (i : Nat) (u : Setup), n.setups[i]? = some u →
    u.epoch ≤ n.bridgeEpoch ∧ u.broker < n.nextBroker ∧ u.params.object < n.nextObject
  distinct : ∀ (i j : Nat) (u v : Setup), n.setups[i]? = some u → n.setups[j]? = some v →
    u.epoch = v.epoch → i = j
  settled : ∀ (x : RemoteId) (r : Remote), n.remotes[x]? = some r → r.broker < n.nextBroker

structure Routed (n : Node) : Prop extends Numbered n where
  /-- A router belongs to its broker. -/
  home : ∀ (b : BrokerId) (x : RemoteId), n.routers b = some x →
    ∃ r, n.remotes[x]? = some r ∧ r.broker = b
  held : n.brokerRemote.isSome = true → n.bridgeParams.isSome = true
  /-- While a setup is current, no bridge is installed. -/
  vacant : ∀ (i : Nat) (u : Setup), n.setups[i]? = some u → u.stage ≠ .ended →
    n.isBridgeSetupCurrent u = true → n.brokerRemote = none
  installed : ∀ (x : RemoteId), n.brokerRemote = some x →
    ∃ r, n.remotes[x]? = some r ∧ r.detached = false ∧
      (n.localBroker = some r.broker ∨ 0 < n.failovers) ∧
      (n.localBroker = some r.broker → n.routers r.broker = some x)
  constructed : ∀ (i : Nat) (u : Setup) (x : RemoteId), n.setups[i]? = some u →
    u.stage.remote = some x →
      n.brokerRemote ≠ some x ∧
        ∃ r, n.remotes[x]? = some r ∧ r.broker = u.broker ∧ r.detached = false
  /-- A remote is constructed by one setup. -/
  apart : ∀ (i j : Nat) (u v : Setup) (x : RemoteId), n.setups[i]? = some u →
    n.setups[j]? = some v → u.stage.remote = some x → v.stage.remote = some x → i = j
  handing : ∀ (i : Nat) (u : Setup) (x : RemoteId), n.setups[i]? = some u →
    n.hands u x = true → n.routers u.broker = some x
  /-- The router of the local broker is the installed bridge or that of a setup in progress. -/
  owned : ∀ (b : BrokerId) (x : RemoteId), n.localBroker = some b → n.routers b = some x →
    n.brokerRemote = some x ∨
      ∃ (i : Nat) (u : Setup), n.setups[i]? = some u ∧ u.stage.remote = some x

/-! ## Currency -/

theorem isBridgeSetupCurrent_iff :
    n.isBridgeSetupCurrent u = true ↔
      n.bridgeEpoch = u.epoch ∧ n.bridgeParams = some u.params ∧ n.leader = true ∧
        n.localBroker = some u.broker := by
  simp [isBridgeSetupCurrent, and_assoc]

theorem isBridgeEpochCurrent_iff {relay : Relay} :
    n.isBridgeEpochCurrent u relay = true ↔
      n.isBridgeSetupCurrent u = true ∧ n.relay = some relay := by
  simp [isBridgeEpochCurrent]

theorem hands_iff :
    n.hands u x = true ↔
      ∃ relay, u.stage = .built relay x ∧ n.isBridgeEpochCurrent u relay = true := by
  unfold hands
  split
  · next relay built stage =>
    simp only [stage, Bool.and_eq_true, beq_iff_eq, Stage.built.injEq]
    constructor
    · rintro ⟨rfl, current⟩
      exact ⟨relay, ⟨rfl, rfl⟩, current⟩
    · rintro ⟨_, ⟨rfl, rfl⟩, current⟩
      exact ⟨rfl, current⟩
  · next other =>
    refine iff_of_false Bool.false_ne_true ?_
    rintro ⟨relay, stage, -⟩
    exact other relay x stage

theorem remote_of_hands (hands : n.hands u x = true) : u.stage.remote = some x := by
  obtain ⟨relay, stage, -⟩ := hands_iff.mp hands
  rw [stage]
  rfl

theorem setupCurrent_of_hands (hands : n.hands u x = true) :
    n.isBridgeSetupCurrent u = true := by
  obtain ⟨relay, -, current⟩ := hands_iff.mp hands
  exact (isBridgeEpochCurrent_iff.mp current).1

theorem ne_ended_of_remote (built : u.stage.remote = some x) : u.stage ≠ .ended := by
  intro ended
  rw [ended] at built
  cases built

/-- The setup with the epoch of the node is the only one that is current. -/
theorem Numbered.eq_of_current {j : Nat} {v : Setup} (numbered : n.Numbered)
    (here : n.setups[i]? = some u) (there : n.setups[j]? = some v)
    (current : n.isBridgeSetupCurrent u = true) (other : n.isBridgeSetupCurrent v = true) :
    i = j :=
  numbered.distinct i j u v here there
    ((isBridgeSetupCurrent_iff.mp current).1.symm.trans (isBridgeSetupCurrent_iff.mp other).1)

/-! ## Beginning a setup -/

/-- New parameters supersede every setup. -/
theorem Routed.rename {p : BridgeParams} {next : Nat} (routed : n.Routed)
    (fresh : n.nextObject ≤ p.object) (below : p.object < next) :
    Routed { n with bridgeParams := some p, nextObject := next } := by
  have stale : ∀ (i : Nat) (u : Setup), n.setups[i]? = some u →
      Node.isBridgeSetupCurrent { n with bridgeParams := some p, nextObject := next } u ≠ true := by
    intro i u here current
    have same : some p = some u.params := (isBridgeSetupCurrent_iff.mp current).2.1
    have known := (routed.begun i u here).2.2
    cases same
    omega
  exact { routed with
    parameters := by
      intro q same
      cases same
      exact below
    begun := by
      intro i u here
      obtain ⟨epoch, broker, object⟩ := routed.begun i u here
      exact ⟨epoch, broker, show u.params.object < next by omega⟩
    held := fun _ => rfl
    vacant := fun i u here _ current => absurd current (stale i u here)
    handing := fun i u x here hands => absurd (setupCurrent_of_hands hands) (stale i u here) }

/-- A setup that has begun takes the next epoch, and supersedes the others. -/
theorem Routed.enter {relay : Option Relay} {relayOwned keypair : Bool} (routed : n.Routed)
    (empty : n.brokerRemote = none) (epoch : u.epoch = n.bridgeEpoch + 1)
    (broker : n.localBroker = some u.broker) (params : n.bridgeParams = some u.params)
    (early : u.stage.remote = none) :
    Routed { n with
      bridgeEpoch := n.bridgeEpoch + 1
      relay := relay
      relayOwned := relayOwned
      keypair := keypair
      setups := n.setups ++ [u] } := by
  -- the new epoch is later than that of every earlier setup
  have stale : ∀ (i : Nat) (v : Setup), n.setups[i]? = some v → v.epoch ≠ n.bridgeEpoch + 1 := by
    intro i v here
    have known := (routed.begun i v here).1
    omega
  -- what has built a remote is an earlier setup
  have before : ∀ (i : Nat) (v : Setup) (x : RemoteId), (n.setups ++ [u])[i]? = some v →
      v.stage.remote = some x → n.setups[i]? = some v := by
    intro i v x here built
    rcases of_getElem?_concat here with ⟨-, rfl⟩ | ⟨-, there⟩
    · exact nomatch early.symm.trans built
    · exact there
  exact { routed with
    begun := by
      intro i v here
      rcases of_getElem?_concat here with ⟨-, rfl⟩ | ⟨-, there⟩
      · exact ⟨Nat.le_of_eq epoch, routed.hosted _ broker, routed.parameters _ params⟩
      · obtain ⟨before, known⟩ := routed.begun i v there
        exact ⟨Nat.le_succ_of_le before, known⟩
    distinct := by
      intro i j v w here there same
      rcases of_getElem?_concat here with ⟨rfl, rfl⟩ | ⟨-, here'⟩ <;>
        rcases of_getElem?_concat there with ⟨rfl, rfl⟩ | ⟨-, there'⟩
      · rfl
      · exact absurd (same.symm.trans epoch) (stale j w there')
      · exact absurd (same.trans epoch) (stale i v here')
      · exact routed.distinct i j v w here' there' same
    vacant := fun _ _ _ _ _ => empty
    constructed := fun i v x here built =>
      routed.constructed i v x (before i v x here built) built
    apart := fun i j v w x here there built built' =>
      routed.apart i j v w x (before i v x here built) (before j w x there built') built built'
    handing := by
      intro i v x here hands
      have there := before i v x here (remote_of_hands hands)
      have current := (isBridgeSetupCurrent_iff.mp (setupCurrent_of_hands hands)).1
      exact absurd current.symm (stale i v there)
    owned := by
      intro b x hosted routes
      rcases routed.owned b x hosted routes with installed | ⟨i, v, here, built⟩
      · exact Or.inl installed
      · refine Or.inr ⟨i, v, ?_, built⟩
        exact (List.getElem?_append_left (List.getElem?_eq_some_iff.mp here).1).trans here }

/-- A call of `_maybeBridge` returns at once, or enters a setup that supersedes the others. -/
theorem begin_cases (n : Node) (caller : Option Nat) :
    n.begin caller = n ∨
      n.brokerRemote = none ∧ ∃ u relay relayOwned keypair, u.epoch = n.bridgeEpoch + 1 ∧
        n.localBroker = some u.broker ∧ n.bridgeParams = some u.params ∧
        u.stage.remote = none ∧
        n.begin caller = { n with
          bridgeEpoch := n.bridgeEpoch + 1
          relay := relay
          relayOwned := relayOwned
          keypair := keypair
          setups := n.setups ++ [u] } := by
  unfold begin
  cases began : n.maybeBridge caller with
  | none => exact Or.inl rfl
  | some result =>
    right
    unfold maybeBridge at began
    split at began
    · cases began
    · next free =>
      split at began
      · cases began
      · split at began
        · next broker params hosted parameters =>
          dsimp only at began
          refine ⟨by simpa using free, ?_⟩
          split at began <;> cases began
          · refine ⟨_, _, _, _, rfl, hosted, parameters, ?_, rfl⟩
            dsimp only
            split <;> rfl
          · refine ⟨_, _, _, _, rfl, hosted, parameters, ?_, rfl⟩
            dsimp only
            split <;> rfl
        · cases began

theorem Routed.begin (routed : n.Routed) (caller : Option Nat) : (n.begin caller).Routed := by
  rcases n.begin_cases caller with
    same | ⟨empty, u, relay, relayOwned, keypair, epoch, broker, params, early, eq⟩
  · rw [same]
    exact routed
  · rw [eq]
    exact routed.enter empty epoch broker params early

theorem Routed.attachBridge (routed : n.Routed) (relay : Nat) (keypair : Bool)
    (caller : Option Nat) : (n.attachBridge relay keypair caller).Routed :=
  (routed.rename (Nat.le_refl n.nextObject) (Nat.lt_succ_self _)).begin caller

theorem Routed.attemptRelayReconnect (routed : n.Routed) : n.attemptRelayReconnect.Routed := by
  unfold Node.attemptRelayReconnect
  split
  · exact routed.begin none
  · exact routed

/-! ## Detaching the bridge -/

theorem detachRemote_eq (here : n.remotes[x]? = some r) (live : r.detached = false) :
    n.detachRemote x = { n with
      remotes := n.remotes.set x { r with detached := true }
      routers := Function.update n.routers r.broker none } := by
  obtain ⟨broker, detached, object⟩ := r
  cases live
  simp [detachRemote, here, setRemoteRouter]

/-- The remotes keep their brokers when one of them is detached. -/
theorem Numbered.settled_set (numbered : n.Numbered) (here : n.remotes[x]? = some r) :
    ∀ (y : RemoteId) (m : Remote),
      (n.remotes.set x { r with detached := true })[y]? = some m → m.broker < n.nextBroker := by
  intro y m there
  rcases of_getElem?_set there with ⟨-, rfl⟩ | ⟨-, there'⟩
  · exact numbered.settled x r here
  · exact numbered.settled y m there'

/-- Detaching the remote of a broker leaves the routers of the other brokers at home. -/
theorem Routed.home_detach (routed : n.Routed) (here : n.remotes[x]? = some r) :
    ∀ (b : BrokerId) (y : RemoteId), Function.update n.routers r.broker none b = some y →
      b ≠ r.broker ∧ y ≠ x ∧ n.routers b = some y ∧
        ∃ m, (n.remotes.set x { r with detached := true })[y]? = some m ∧ m.broker = b := by
  intro b y routes
  rcases of_update_eq_some routes with ⟨-, gone⟩ | ⟨elsewhere, old⟩
  · cases gone
  · obtain ⟨m, there, home⟩ := routed.home b y old
    have apart : y ≠ x := by
      rintro rfl
      cases here.symm.trans there
      exact elsewhere home.symm
    exact ⟨elsewhere, apart, old, m, (List.getElem?_set_ne (Ne.symm apart)).trans there, home⟩

/-- `_detachBridgeKeepingParams` removes the bridge and its router, and supersedes every setup. -/
theorem Routed.detachBridgeKeepingParams (routed : n.Routed) :
    n.detachBridgeKeepingParams.Routed := by
  -- the new epoch is later than that of every setup
  have stale : ∀ (i : Nat) (u : Setup), n.setups[i]? = some u → n.bridgeEpoch + 1 ≠ u.epoch := by
    intro i u here
    have known := (routed.begun i u here).1
    omega
  have begun : ∀ (i : Nat) (u : Setup), n.setups[i]? = some u →
      u.epoch ≤ n.bridgeEpoch + 1 ∧ u.broker < n.nextBroker ∧ u.params.object < n.nextObject := by
    intro i u here
    obtain ⟨before, known⟩ := routed.begun i u here
    exact ⟨Nat.le_succ_of_le before, known⟩
  unfold Node.detachBridgeKeepingParams
  cases bridge : n.brokerRemote with
  | none =>
    exact { routed with
      begun := begun
      held := fun some => nomatch some
      vacant := fun _ _ _ _ _ => rfl
      installed := fun _ here => nomatch here
      constructed := fun i u x here built =>
        ⟨fun there => (nomatch there), (routed.constructed i u x here built).2⟩
      handing := fun i u x here hands =>
        absurd (isBridgeSetupCurrent_iff.mp (setupCurrent_of_hands hands)).1 (stale i u here)
      owned := by
        intro b x hosted routes
        rcases routed.owned b x hosted routes with here | other
        · exact nomatch bridge.symm.trans here
        · exact Or.inr other }
  -- the installed remote is detached, and routes nowhere from now on
  | some y =>
    obtain ⟨r, here, live, -, -⟩ := routed.installed y bridge
    dsimp only
    rw [detachRemote_eq here live]
    exact { routed with
      begun := begun
      settled := routed.settled_set here
      home := fun b x routes => (routed.home_detach here b x routes).2.2.2
      held := fun some => nomatch some
      vacant := fun _ _ _ _ _ => rfl
      installed := fun _ here => nomatch here
      constructed := by
        intro i u x at_i built
        obtain ⟨other, m, there, known⟩ := routed.constructed i u x at_i built
        have apart : y ≠ x := fun same => other (same ▸ bridge)
        exact ⟨fun there => (nomatch there), m,
          (List.getElem?_set_ne apart).trans there, known⟩
      handing := fun i u x at_i hands =>
        absurd (isBridgeSetupCurrent_iff.mp (setupCurrent_of_hands hands)).1 (stale i u at_i)
      owned := by
        intro b x hosted routes
        obtain ⟨-, apart, routes', -⟩ := routed.home_detach here b x routes
        rcases routed.owned b x hosted routes' with installed | other
        · exact absurd (Option.some.inj (installed.symm.trans bridge)) apart
        · exact Or.inr other }

/-- Without a bridge, forgetting the parameters supersedes every setup. -/
theorem Routed.forget (routed : n.Routed) (empty : n.brokerRemote = none) :
    Routed { n with bridgeParams := none } := by
  have stale : ∀ (u : Setup),
      Node.isBridgeSetupCurrent { n with bridgeParams := none } u ≠ true :=
    fun u current => nomatch (isBridgeSetupCurrent_iff.mp current).2.1
  exact { routed with
    parameters := fun _ same => nomatch same
    held := fun some => by simp [empty] at some
    vacant := fun _ _ _ _ _ => empty
    handing := fun _ u _ _ hands => absurd (setupCurrent_of_hands hands) (stale u) }

theorem Routed.detachBridge (routed : n.Routed) : n.detachBridge.Routed :=
  routed.detachBridgeKeepingParams.forget rfl

/-! ## Failovers -/

/-- A failover supersedes every setup, and leaves an installed bridge with its old broker. -/
theorem Routed.failover (routed : n.Routed) (leader : Bool) : (n.failover leader).Routed := by
  unfold Node.failover
  split
  -- a new broker: no setup was begun for it, and it routes nowhere
  · have stale : ∀ (i : Nat) (u : Setup), n.setups[i]? = some u → u.broker ≠ n.nextBroker :=
      fun i u here => Nat.ne_of_lt (routed.begun i u here).2.1
    have fresh : n.routers n.nextBroker = none := by
      cases routes : n.routers n.nextBroker with
      | none => rfl
      | some x =>
        obtain ⟨r, here, home⟩ := routed.home _ x routes
        exact absurd home (Nat.ne_of_lt (routed.settled x r here))
    exact { routed with
      hosted := by
        intro b same
        cases same
        exact Nat.lt_succ_self _
      begun := by
        intro i u here
        obtain ⟨epoch, broker, object⟩ := routed.begun i u here
        exact ⟨epoch, Nat.lt_succ_of_lt broker, object⟩
      settled := fun x r here => Nat.lt_succ_of_lt (routed.settled x r here)
      vacant := fun i u here _ current =>
        absurd (Option.some.inj (isBridgeSetupCurrent_iff.mp current).2.2.2).symm (stale i u here)
      installed := by
        intro x here
        obtain ⟨r, there, live, -, -⟩ := routed.installed x here
        have old : n.nextBroker ≠ r.broker := Nat.ne_of_gt (routed.settled x r there)
        exact ⟨r, there, live, Or.inr (Nat.succ_pos _),
          fun same => absurd (Option.some.inj same) old⟩
      handing := fun i u x here hands =>
        absurd (Option.some.inj
          (isBridgeSetupCurrent_iff.mp (setupCurrent_of_hands hands)).2.2.2).symm (stale i u here)
      owned := by
        intro b x same routes
        cases same
        exact nomatch fresh.symm.trans routes }
  -- no broker of its own: what was installed may stay, what was being set up is stale
  · exact { routed with
      vacant := fun _ _ _ _ current => nomatch (isBridgeSetupCurrent_iff.mp current).2.2.1
      installed := by
        intro x here
        obtain ⟨r, there, live, -, routes⟩ := routed.installed x here
        exact ⟨r, there, live, Or.inr (Nat.succ_pos _), routes⟩
      handing := fun _ _ _ _ hands =>
        nomatch (isBridgeSetupCurrent_iff.mp (setupCurrent_of_hands hands)).2.2.1 }

/-- A failover ends, with no bridge left on another broker. -/
theorem Routed.registered (routed : n.Routed) (count : Nat)
    (moved : ∀ x ∈ n.brokerRemote, ∀ r ∈ n.remotes[x]?, n.localBroker = some r.broker) :
    Routed { n with failovers := count } :=
  { routed with
    installed := by
      intro x here
      obtain ⟨r, there, live, -, routes⟩ := routed.installed x here
      exact ⟨r, there, live, Or.inl (moved x here r there), routes⟩ }

theorem begin_brokerRemote (caller : Option Nat) :
    (n.begin caller).brokerRemote = n.brokerRemote := by
  rcases n.begin_cases caller with same | ⟨-, u, relay, relayOwned, keypair, -, -, -, -, eq⟩
  · rw [same]
  · rw [eq]

/-- `_onReconnect` leaves no bridge installed. -/
theorem Routed.onReconnect_brokerRemote (routed : n.Routed) :
    n.onReconnect.brokerRemote = none := by
  unfold Node.onReconnect
  split
  · next absent =>
    cases bridge : n.brokerRemote with
    | none => rfl
    | some x =>
      have held := routed.held (by rw [bridge]; rfl)
      rw [Option.isNone_iff_eq_none] at absent
      rw [absent] at held
      cases held
  · rw [begin_brokerRemote]
    rfl

theorem Routed.onReconnect (routed : n.Routed) : n.onReconnect.Routed := by
  unfold Node.onReconnect
  split
  · exact routed
  · exact routed.detachBridgeKeepingParams.begin none

/-! ## After an await -/

theorem Numbered.begun_advance {stage : Stage} (numbered : n.Numbered)
    (here : n.setups[i]? = some u) : ∀ (j : Nat) (v : Setup),
      (n.setups.set i { u with stage := stage })[j]? = some v →
        v.epoch ≤ n.bridgeEpoch ∧ v.broker < n.nextBroker ∧ v.params.object < n.nextObject := by
  intro j v there
  rcases of_getElem?_set there with ⟨-, rfl⟩ | ⟨-, there'⟩
  · exact numbered.begun i u here
  · exact numbered.begun j v there'

theorem Numbered.distinct_advance {stage : Stage} (numbered : n.Numbered)
    (here : n.setups[i]? = some u) : ∀ (j k : Nat) (v w : Setup),
      (n.setups.set i { u with stage := stage })[j]? = some v →
        (n.setups.set i { u with stage := stage })[k]? = some w → v.epoch = w.epoch → j = k := by
  intro j k v w at_j at_k same
  rcases of_getElem?_set at_j with ⟨rfl, rfl⟩ | ⟨-, at_j'⟩ <;>
    rcases of_getElem?_set at_k with ⟨rfl, rfl⟩ | ⟨-, at_k'⟩
  · rfl
  · exact numbered.distinct j k u w here at_k' same
  · exact numbered.distinct j k v u at_j' here same
  · exact numbered.distinct j k v w at_j' at_k' same

/-- A setup goes on without a remote. Where it has opened a relay, it was current. -/
theorem Routed.wait {stage : Stage} {relay : Option Relay} {relayOwned keypair : Bool}
    {nextRelay : Nat} (routed : n.Routed) (here : n.setups[i]? = some u)
    (active : u.stage ≠ .ended) (early : u.stage.remote = none) (next : stage.remote = none)
    (same : relay = n.relay ∨ n.isBridgeSetupCurrent u = true) :
    Routed { n with
      relay := relay
      relayOwned := relayOwned
      keypair := keypair
      nextRelay := nextRelay
      setups := n.setups.set i { u with stage := stage } } := by
  have before : ∀ (j : Nat) (v : Setup) (x : RemoteId),
      (n.setups.set i { u with stage := stage })[j]? = some v → v.stage.remote = some x →
        j ≠ i ∧ n.setups[j]? = some v := by
    intro j v x there built
    rcases of_getElem?_set there with ⟨-, rfl⟩ | other
    · exact nomatch next.symm.trans built
    · exact other
  exact { routed with
    begun := routed.begun_advance here
    distinct := routed.distinct_advance here
    vacant := by
      intro j v there pending current
      rcases of_getElem?_set there with ⟨-, rfl⟩ | ⟨-, there'⟩
      · exact routed.vacant i u here active current
      · exact routed.vacant j v there' pending current
    constructed := fun j v x there built =>
      routed.constructed j v x (before j v x there built).2 built
    apart := fun j k v w x at_j at_k built built' =>
      routed.apart j k v w x (before j v x at_j built).2 (before k w x at_k built').2 built built'
    handing := by
      intro j v x there hands
      obtain ⟨other, there'⟩ := before j v x there (remote_of_hands hands)
      have setupCurrent := setupCurrent_of_hands hands
      rcases same with rfl | current
      · exact routed.handing j v x there' hands
      · exact absurd (routed.eq_of_current here there' current setupCurrent) (Ne.symm other)
    owned := by
      intro b x hosted routes
      rcases routed.owned b x hosted routes with installed | ⟨j, v, there, built⟩
      · exact Or.inl installed
      · have other : i ≠ j := by
          rintro rfl
          cases here.symm.trans there
          exact nomatch early.symm.trans built
        exact Or.inr ⟨j, v, (List.getElem?_set_ne other).trans there, built⟩ }

/-- An installed bridge claims its broker while that is the local one. -/
theorem Routed.claimed_installed (routed : n.Routed) (bridge : n.brokerRemote = some x)
    (here : n.remotes[x]? = some r) (hosted : n.localBroker = some r.broker) :
    n.Claimed r.broker := by
  obtain ⟨m, there, -, -, routes⟩ := routed.installed x bridge
  cases here.symm.trans there
  exact ⟨x, routes hosted, Or.inl bridge⟩

/-- A setup that hands its remote over claims its broker. -/
theorem Routed.claimed_hands (routed : n.Routed) (here : n.setups[i]? = some u)
    (hands : n.hands u x = true) : n.Claimed u.broker :=
  ⟨x, routed.handing i u x here hands, Or.inr ⟨u, List.mem_of_getElem? here, hands⟩⟩

section Reroute

variable {relay : Relay}

/-- Where a superseded setup may reroute its broker, an installed bridge has another one. -/
theorem Routed.installed_elsewhere (routed : n.Routed) (here : n.setups[i]? = some u)
    (active : u.stage ≠ .ended)
    (clear : n.isBridgeEpochCurrent u relay = false → n.localBroker = some u.broker →
      ¬ n.Claimed u.broker)
    (bridge : n.brokerRemote = some x) (there : n.remotes[x]? = some r)
    (hosted : n.localBroker = some r.broker) : r.broker ≠ u.broker := by
  intro same
  have stale : n.isBridgeEpochCurrent u relay = false := by
    rw [Bool.eq_false_iff]
    intro current
    have empty := routed.vacant i u here active (isBridgeEpochCurrent_iff.mp current).1
    exact nomatch bridge.symm.trans empty
  have claimed := routed.claimed_installed bridge there hosted
  rw [same] at hosted claimed
  exact clear stale hosted claimed

/-- Where a superseded setup may reroute its broker, a remote about to be installed has another
one. -/
theorem Routed.handed_elsewhere {j : Nat} {v : Setup} (routed : n.Routed)
    (here : n.setups[i]? = some u) (other : j ≠ i)
    (clear : n.isBridgeEpochCurrent u relay = false → n.localBroker = some u.broker →
      ¬ n.Claimed u.broker)
    (there : n.setups[j]? = some v) (hands : n.hands v x = true) : v.broker ≠ u.broker := by
  intro same
  have setupCurrent := setupCurrent_of_hands hands
  have stale : n.isBridgeEpochCurrent u relay = false := by
    rw [Bool.eq_false_iff]
    intro current
    exact other (routed.eq_of_current there here setupCurrent
      (isBridgeEpochCurrent_iff.mp current).1)
  have hosted := (isBridgeSetupCurrent_iff.mp setupCurrent).2.2.2
  have claimed := routed.claimed_hands there hands
  rw [same] at hosted claimed
  exact clear stale hosted claimed

/-- A setup constructs its remote. -/
theorem Routed.construct (routed : n.Routed) (here : n.setups[i]? = some u)
    (active : u.stage ≠ .ended) (early : u.stage.remote = none)
    (clear : n.isBridgeEpochCurrent u relay = false → n.localBroker = some u.broker →
      ¬ n.Claimed u.broker) :
    Routed { n with
      remotes := n.remotes ++ [⟨u.broker, false, u.params.object⟩]
      routers := Function.update n.routers u.broker (some n.remotes.length)
      setups := n.setups.set i { u with stage := .built relay n.remotes.length } } := by
  have known : ∀ (y : RemoteId) (m : Remote), n.remotes[y]? = some m →
      (n.remotes ++ [⟨u.broker, false, u.params.object⟩])[y]? = some m := fun y m there =>
    (List.getElem?_append_left (List.getElem?_eq_some_iff.mp there).1).trans there
  have fresh : ∀ (m : Remote), n.remotes[n.remotes.length]? ≠ some m := by
    intro m there
    rw [List.getElem?_eq_none (Nat.le_refl _)] at there
    cases there
  exact { routed with
    begun := routed.begun_advance here
    distinct := routed.distinct_advance here
    settled := by
      intro y m there
      rcases of_getElem?_concat there with ⟨-, rfl⟩ | ⟨-, there'⟩
      · exact (routed.begun i u here).2.1
      · exact routed.settled y m there'
    home := by
      intro b y routes
      rcases of_update_eq_some routes with ⟨rfl, new⟩ | ⟨-, old⟩
      · cases new
        exact ⟨_, List.getElem?_concat_length, rfl⟩
      · obtain ⟨m, there, home⟩ := routed.home b y old
        exact ⟨m, known y m there, home⟩
    vacant := by
      intro j v there pending current
      rcases of_getElem?_set there with ⟨-, rfl⟩ | ⟨-, there'⟩
      · exact routed.vacant i u here active current
      · exact routed.vacant j v there' pending current
    installed := by
      intro y bridge
      obtain ⟨m, there, live, moved, routes⟩ := routed.installed y bridge
      refine ⟨m, known y m there, live, moved, fun hosted => ?_⟩
      have elsewhere := routed.installed_elsewhere here active clear bridge there hosted
      exact (Function.update_of_ne elsewhere _ _).trans (routes hosted)
    constructed := by
      intro j v y there built
      rcases of_getElem?_set there with ⟨-, rfl⟩ | ⟨-, there'⟩
      · cases built
        refine ⟨fun bridge => ?_, _, List.getElem?_concat_length, rfl, rfl⟩
        obtain ⟨m, old, -⟩ := routed.installed _ bridge
        exact fresh m old
      · obtain ⟨apart, m, old, facts⟩ := routed.constructed j v y there' built
        exact ⟨apart, m, known y m old, facts⟩
    apart := by
      intro j k v w y at_j at_k built built'
      -- The new remote is not among those constructed before.
      have new : ∀ (l : Nat) (s : Setup), n.setups[l]? = some s →
          s.stage.remote ≠ some n.remotes.length := by
        intro l s there same
        obtain ⟨-, m, old, -⟩ := routed.constructed l s _ there same
        exact fresh m old
      rcases of_getElem?_set at_j with ⟨rfl, rfl⟩ | ⟨-, at_j'⟩ <;>
        rcases of_getElem?_set at_k with ⟨rfl, rfl⟩ | ⟨-, at_k'⟩
      · rfl
      · cases built
        exact absurd built' (new k w at_k')
      · cases built'
        exact absurd built (new j v at_j')
      · exact routed.apart j k v w y at_j' at_k' built built'
    handing := by
      intro j v y there hands
      rcases of_getElem?_set there with ⟨rfl, rfl⟩ | ⟨other, there'⟩
      · cases remote_of_hands hands
        exact Function.update_self _ _ _
      · have elsewhere := routed.handed_elsewhere here other clear there' hands
        exact (Function.update_of_ne elsewhere _ _).trans (routed.handing j v y there' hands)
    owned := by
      intro b y hosted routes
      rcases of_update_eq_some routes with ⟨rfl, new⟩ | ⟨-, old⟩
      · exact Or.inr ⟨i, _, getElem?_set_of_some here, new⟩
      · rcases routed.owned b y hosted old with installed | ⟨j, v, there, built⟩
        · exact Or.inl installed
        · have other : i ≠ j := by
            rintro rfl
            cases here.symm.trans there
            exact nomatch early.symm.trans built
          exact Or.inr ⟨j, v, (List.getElem?_set_ne other).trans there, built⟩ }

/-- A superseded setup detaches the remote that it has constructed. -/
theorem Routed.discard (routed : n.Routed) (here : n.setups[i]? = some u)
    (built : u.stage.remote = some x)
    (clear : n.isBridgeEpochCurrent u relay = false → n.localBroker = some u.broker →
      ¬ n.Claimed u.broker) :
    Routed { n.detachRemote x with
      setups := (n.detachRemote x).setups.set i { u with stage := .ended } } := by
  obtain ⟨notInstalled, r, remote, broker, live⟩ := routed.constructed i u x here built
  -- what is still being set up was so before, and with another remote
  have before : ∀ (j : Nat) (v : Setup) (y : RemoteId),
      (n.setups.set i { u with stage := .ended })[j]? = some v → v.stage.remote = some y →
        j ≠ i ∧ n.setups[j]? = some v ∧ x ≠ y := by
    intro j v y there built'
    rcases of_getElem?_set there with ⟨-, rfl⟩ | ⟨other, there'⟩
    · cases built'
    · refine ⟨other, there', ?_⟩
      rintro rfl
      exact other (routed.apart j i v u x there' here built' built)
  rw [detachRemote_eq remote live]
  exact { routed with
    begun := routed.begun_advance here
    distinct := routed.distinct_advance here
    settled := routed.settled_set remote
    home := fun b y routes => (routed.home_detach remote b y routes).2.2.2
    vacant := by
      intro j v there pending current
      rcases of_getElem?_set there with ⟨-, rfl⟩ | ⟨-, there'⟩
      · exact absurd rfl pending
      · exact routed.vacant j v there' pending current
    installed := by
      intro y bridge
      obtain ⟨m, there, live', moved, routes⟩ := routed.installed y bridge
      have apart : x ≠ y := by
        rintro rfl
        exact notInstalled bridge
      refine ⟨m, (List.getElem?_set_ne apart).trans there, live', moved, fun hosted => ?_⟩
      -- the installed remote routes on another broker than the one that is detached
      have elsewhere := routed.installed_elsewhere here (ne_ended_of_remote built) clear bridge
        there hosted
      rw [← broker] at elsewhere
      exact (Function.update_of_ne elsewhere _ _).trans (routes hosted)
    constructed := by
      intro j v y there built'
      obtain ⟨-, there', apart⟩ := before j v y there built'
      obtain ⟨free, m, old, facts⟩ := routed.constructed j v y there' built'
      exact ⟨free, m, (List.getElem?_set_ne apart).trans old, facts⟩
    apart := fun j k v w y at_j at_k built₁ built₂ =>
      routed.apart j k v w y (before j v y at_j built₁).2.1 (before k w y at_k built₂).2.1
        built₁ built₂
    handing := by
      intro j v y there hands
      obtain ⟨other, there', -⟩ := before j v y there (remote_of_hands hands)
      -- and so does a remote that is being handed over
      have elsewhere := routed.handed_elsewhere here other clear there' hands
      rw [← broker] at elsewhere
      exact (Function.update_of_ne elsewhere _ _).trans (routed.handing j v y there' hands)
    owned := by
      intro b y hosted routes
      obtain ⟨-, apart, routes', -⟩ := routed.home_detach remote b y routes
      rcases routed.owned b y hosted routes' with installed | ⟨j, v, there, built'⟩
      · exact Or.inl installed
      · have other : i ≠ j := by
          rintro rfl
          cases here.symm.trans there
          exact apart (Option.some.inj (built'.symm.trans built))
        exact Or.inr ⟨j, v, (List.getElem?_set_ne other).trans there, built'⟩ }

/-- A current setup installs the remote that it has constructed. -/
theorem Routed.install (routed : n.Routed) (here : n.setups[i]? = some u)
    (stage : u.stage = .built relay x) (current : n.isBridgeEpochCurrent u relay = true) :
    Routed { n with
      brokerRemote := some x
      setups := n.setups.set i { u with stage := .ended } } := by
  have setupCurrent := (isBridgeEpochCurrent_iff.mp current).1
  obtain ⟨-, params, -, hosted⟩ := isBridgeSetupCurrent_iff.mp setupCurrent
  have built : u.stage.remote = some x := by rw [stage]; rfl
  -- the place is empty while the setup is current
  have empty := routed.vacant i u here (ne_ended_of_remote built) setupCurrent
  have routes := routed.handing i u x here (hands_iff.mpr ⟨relay, stage, current⟩)
  obtain ⟨-, r, remote, broker, live⟩ := routed.constructed i u x here built
  have before : ∀ (j : Nat) (v : Setup) (y : RemoteId),
      (n.setups.set i { u with stage := .ended })[j]? = some v → v.stage.remote = some y →
        n.setups[j]? = some v ∧ some x ≠ some y := by
    intro j v y there built'
    rcases of_getElem?_set there with ⟨-, rfl⟩ | ⟨other, there'⟩
    · cases built'
    · refine ⟨there', ?_⟩
      rintro same
      cases same
      exact other (routed.apart j i v u x there' here built' built)
  exact { routed with
    begun := routed.begun_advance here
    distinct := routed.distinct_advance here
    held := fun _ => by rw [params]; rfl
    vacant := by
      intro j v there pending current'
      rcases of_getElem?_set there with ⟨-, rfl⟩ | ⟨other, there'⟩
      · exact absurd rfl pending
      -- two setups cannot be current at once
      · exact absurd (routed.eq_of_current there' here current' setupCurrent) other
    installed := by
      intro y bridge
      cases bridge
      refine ⟨r, remote, live, Or.inl ?_, fun _ => ?_⟩
      · rw [broker]
        exact hosted
      · rw [broker]
        exact routes
    constructed := fun j v y there built' =>
      ⟨(before j v y there built').2,
        (routed.constructed j v y (before j v y there built').1 built').2⟩
    apart := fun j k v w y at_j at_k built₁ built₂ =>
      routed.apart j k v w y (before j v y at_j built₁).1 (before k w y at_k built₂).1
        built₁ built₂
    handing := fun j v y there hands =>
      routed.handing j v y (before j v y there (remote_of_hands hands)).1 hands
    owned := by
      intro b y hosted' routes'
      rcases routed.owned b y hosted' routes' with installed | ⟨j, v, there, built'⟩
      · exact nomatch empty.symm.trans installed
      · by_cases same : i = j
        · subst same
          cases here.symm.trans there
          exact Or.inl (built.symm.trans built')
        · exact Or.inr ⟨j, v, (List.getElem?_set_ne same).trans there, built'⟩ }

end Reroute

/-- The synchronous part after an await keeps the invariant, where a superseded setup finds no
bridge claiming its broker. -/
theorem Routed.resolve (routed : n.Routed) (here : n.setups[i]? = some u)
    (active : u.stage ≠ .ended)
    (clear : n.Superseded u → n.Reroutes u → ¬ n.Claimed u.broker) (ok : Bool) :
    (n.resolve i u ok).Routed := by
  obtain ⟨epoch, params, broker, caller, stage⟩ := u
  cases stage with
  | identity =>
    simp only [Node.resolve, Node.proceed]
    split
    · exact routed.wait here active rfl rfl (Or.inl rfl)
    · split
      · exact routed.wait here active rfl rfl (Or.inl rfl)
      · exact routed.wait here active rfl rfl (Or.inl rfl)
  | connecting =>
    simp only [Node.resolve, Node.proceed]
    split
    · exact routed.wait here active rfl rfl (Or.inl rfl)
    · split
      · exact routed.wait here active rfl rfl (Or.inl rfl)
      · next current => exact routed.wait here active rfl rfl (Or.inr (by simpa using current))
  | keypair relay =>
    simp only [Node.resolve, Node.proceed]
    split
    · exact routed.wait here active rfl rfl (Or.inl rfl)
    · split
      · exact routed.wait here active rfl rfl (Or.inl rfl)
      · exact routed.wait here active rfl rfl (Or.inl rfl)
  | discovering relay =>
    exact routed.construct here active rfl fun stale hosted => clear stale ⟨hosted, trivial⟩
  | built relay x =>
    simp only [Node.resolve, Node.proceed]
    split
    · exact routed.discard here rfl fun stale hosted => clear stale ⟨hosted, trivial⟩
    · next current => exact routed.install here rfl (by simpa using current)
  | ended => exact absurd rfl active

end Node

end OutpostPi.Session.MeshNode
