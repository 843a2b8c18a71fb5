import Mathlib.Data.Option.Basic
import Mathlib.Logic.Function.Basic

/-!
# The cross-PC bridge of a mesh node

A `MeshNode` that leads its local mesh attaches a `BrokerRemote` to its broker as the remote
router. Attaching awaits an identity, possibly a relay connect, and the discovery of siblings;
`Setup` is one such call between two of its awaits. The functions here are the synchronous parts
of `_maybeBridge`, `attachBridge`, `detachBridge` and their callers. Brokers, remotes and relay
clients are named by number, since the code compares them by identity.
-/

set_option autoImplicit false

namespace OutpostPi.Session.MeshNode

abbrev BrokerId := Nat

abbrev RemoteId := Nat

/-- A relay client, handed in by the host or opened by the node itself. -/
inductive Relay
  | injected (client : Nat)
  | own (client : Nat)
  deriving DecidableEq

/-- Bridge parameters. Each object has its own number; `keypair` tells whether it carries one. -/
structure BridgeParams where
  object : Nat
  injectedRelay : Option Nat
  keypair : Bool
  deriving DecidableEq

/-- Where a setup awaits. -/
inductive Stage
  /-- The identity, before a relay of its own is opened. -/
  | identity
  /-- The connect of its own relay. -/
  | connecting
  /-- The identity, with the relay at hand. -/
  | keypair (relay : Relay)
  /-- The discovery of siblings in `attachCrossPcBridge`. -/
  | discovering (relay : Relay)
  /-- The return of `attachCrossPcBridge`, which has constructed the remote. -/
  | built (relay : Relay) (remote : RemoteId)
  | ended
  deriving DecidableEq

/-- One call of `_maybeBridge` in progress. `caller` is the transport attachment that awaits it. -/
structure Setup where
  epoch : Nat
  params : BridgeParams
  broker : BrokerId
  caller : Option Nat
  stage : Stage
  deriving DecidableEq

/-- A `BrokerRemote`, with the parameters object of the setup that constructed it. -/
structure Remote where
  broker : BrokerId
  detached : Bool
  object : Nat
  deriving DecidableEq

/-- The node, its peer's role and broker, the remote router of each broker, the remotes
constructed so far, and the setups in the order of their calls. `failovers` counts the failovers
that have replaced the role and are still registering. -/
structure Node where
  relay : Option Relay
  relayOwned : Bool
  brokerRemote : Option RemoteId
  keypair : Bool
  bridgeParams : Option BridgeParams
  bridgeEpoch : Nat
  leader : Bool
  localBroker : Option BrokerId
  failovers : Nat
  routers : BrokerId → Option RemoteId
  remotes : List Remote
  setups : List Setup
  nextBroker : Nat
  nextRelay : Nat
  nextObject : Nat

namespace Node

/-- A node that has joined the mesh, with parameters of its own when it manages its relay. -/
def joined (leader selfManaged : Bool) : Node where
  relay := none
  relayOwned := false
  brokerRemote := none
  keypair := false
  bridgeParams := if selfManaged then some ⟨0, none, false⟩ else none
  bridgeEpoch := 0
  leader := leader
  localBroker := if leader then some 0 else none
  failovers := 0
  routers := fun _ => none
  remotes := []
  setups := []
  nextBroker := 1
  nextRelay := 0
  nextObject := 1

/-- `setRemoteRouter` of a broker. -/
def setRemoteRouter (n : Node) (broker : BrokerId) (router : Option RemoteId) : Node :=
  { n with routers := Function.update n.routers broker router }

/-- The constructor of `BrokerRemote`, which makes the remote the router of its broker. -/
def constructRemote (n : Node) (broker : BrokerId) (object : Nat) : Node :=
  ({ n with remotes := n.remotes ++ [⟨broker, false, object⟩] } : Node).setRemoteRouter broker
    (some n.remotes.length)

/-- `detach()` of a remote. -/
def detachRemote (n : Node) (remote : RemoteId) : Node :=
  match n.remotes[remote]? with
  | none => n
  | some ⟨broker, detached, object⟩ =>
    if detached then n
    else
      ({ n with remotes := n.remotes.set remote ⟨broker, true, object⟩ } : Node).setRemoteRouter
        broker none

/-- `_detachBridgeKeepingParams`. `_onSelfRelayClosed` has the same effect, since the relay that
it does not close is closed already. -/
def detachBridgeKeepingParams (n : Node) : Node :=
  { (match n.brokerRemote with
      | none => n
      | some remote => n.detachRemote remote) with
    bridgeEpoch := n.bridgeEpoch + 1
    brokerRemote := none
    relay := none
    relayOwned := false }

def detachBridge (n : Node) : Node :=
  { n.detachBridgeKeepingParams with bridgeParams := none }

def isBridgeSetupCurrent (n : Node) (u : Setup) : Bool :=
  n.bridgeEpoch == u.epoch && n.bridgeParams == some u.params && n.leader &&
    n.localBroker == some u.broker

def isBridgeEpochCurrent (n : Node) (u : Setup) (relay : Relay) : Bool :=
  n.isBridgeSetupCurrent u && n.relay == some relay

/-- `_maybeBridge` up to its first await, with the setup that it leaves in progress. -/
def maybeBridge (n : Node) (caller : Option Nat) : Option (Node × Setup) :=
  if n.brokerRemote.isSome then none
  else if !n.leader then none
  else
    match n.localBroker, n.bridgeParams with
    | some broker, some params =>
      let epoch := n.bridgeEpoch + 1
      let identified := n.keypair || params.keypair
      match params.injectedRelay with
      | some client =>
        some ({ n with
            bridgeEpoch := epoch
            relay := some (.injected client)
            relayOwned := false
            keypair := identified },
          ⟨epoch, params, broker, caller,
            if identified then .discovering (.injected client) else .keypair (.injected client)⟩)
      | none =>
        some ({ n with bridgeEpoch := epoch, keypair := identified },
          ⟨epoch, params, broker, caller, if identified then .connecting else .identity⟩)
    | _, _ => none

/-- A call of `_maybeBridge` begins, or returns at once. -/
def begin (n : Node) (caller : Option Nat) : Node :=
  match n.maybeBridge caller with
  | none => n
  | some (n', u) => { n' with setups := n'.setups ++ [u] }

/-- `attachBridge` up to its first await. -/
def attachBridge (n : Node) (relay : Nat) (keypair : Bool) (caller : Option Nat) : Node :=
  { n with
    bridgeParams := some ⟨n.nextObject, some relay, keypair⟩
    nextObject := n.nextObject + 1 }.begin caller

/-- `_onReconnect`, once a failover has registered. -/
def onReconnect (n : Node) : Node :=
  if n.bridgeParams.isNone then n else n.detachBridgeKeepingParams.begin none

/-- `_attemptRelayReconnect`, and the first bridge of a node that manages its relay. -/
def attemptRelayReconnect (n : Node) : Node :=
  match n.bridgeParams with
  | some ⟨_, none, _⟩ => n.begin none
  | _ => n

/-- How the synchronous part after an await ends. -/
inductive Outcome
  | waiting (stage : Stage)
  | returned
  | threw
  deriving DecidableEq

/-- `_maybeBridge` after an await that has succeeded or failed. -/
def proceed (n : Node) (u : Setup) (ok : Bool) : Node × Outcome :=
  match u.stage with
  | .identity =>
    if !ok then (n, .threw)
    else if !n.isBridgeSetupCurrent u then (n, .returned)
    else ({ n with keypair := true }, .waiting .connecting)
  | .connecting =>
    if !ok then (n, .returned)
    else if !n.isBridgeSetupCurrent u then (n, .returned)
    else
      ({ n with relay := some (.own n.nextRelay), relayOwned := true, nextRelay := n.nextRelay + 1 },
        .waiting (.discovering (.own n.nextRelay)))
  | .keypair relay =>
    if !ok then (n, .threw)
    else if !n.isBridgeEpochCurrent u relay then (n, .returned)
    else ({ n with keypair := true }, .waiting (.discovering relay))
  | .discovering relay =>
    (n.constructRemote u.broker u.params.object, .waiting (.built relay n.remotes.length))
  | .built relay remote =>
    if !n.isBridgeEpochCurrent u relay then (n.detachRemote remote, .returned)
    else ({ n with brokerRemote := some remote }, .returned)
  | .ended => (n, .returned)

/-- A UDS failover elects this node, which hosts a fresh broker, or another one. -/
def failover (n : Node) (leader : Bool) : Node :=
  if leader then
    { n with
      leader := true
      localBroker := some n.nextBroker
      nextBroker := n.nextBroker + 1
      failovers := n.failovers + 1 }
  else { n with leader := false, failovers := n.failovers + 1 }

end Node

end OutpostPi.Session.MeshNode
