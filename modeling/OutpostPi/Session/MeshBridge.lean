import OutpostPi.Lib.Machine
import OutpostPi.Lib.Indexed
import OutpostPi.Session.MeshNode

/-!
# The bridge of a mesh node under its relay transport

The relay transport attaches the bridge on every connection and detaches it when the connection
goes. An attachment calls `attachBridge` of the node, awaits it, and detaches the bridge again
when it is no longer the active one. The system interleaves these with direct calls of the node,
with failovers, and with the ends of the awaits of every setup.

`Quiet` says that no call of the node is in progress. The node's bridge should then be the
router of the local broker. It is in every run whose steps are in order, and there no superseded
attach touches a newer bridge (`router_is_bridge`). Out of order, a superseded setup constructs
and detaches its remote after a newer bridge is installed, and a superseded attachment detaches
the newer bridge (`exists_lost_bridge`).
-/

set_option autoImplicit false

namespace OutpostPi.Session.MeshNode

open OutpostPi.Lib

/-! ## The transport -/

/-- Where an attachment of the transport stands. -/
inductive Phase
  /-- `attachBridge` has not been called. -/
  | scheduled
  | attaching
  /-- `attachBridge` has returned or thrown. -/
  | completing (threw : Bool)
  | done
  deriving DecidableEq

/-- One call of `attachCrossPcBridge`, with the parameters object of its `attachBridge`. -/
structure Attachment where
  relay : Nat
  relayUrl : String
  keyId : String
  object : Nat
  phase : Phase
  deriving DecidableEq

/-- The node with the fields of the transport that its bridge depends on. -/
structure State where
  node : Node
  relay : Option Nat
  relayUrl : Option String
  stopping : Bool
  disposed : Bool
  crossPcBridgeInput : Bool
  activeBridge : Option Nat
  attachments : List Attachment

namespace State

/-- A node that has joined, and a transport that has not been started. -/
def joined (leader selfManaged : Bool) : State :=
  ⟨.joined leader selfManaged, none, none, false, false, false, none, []⟩

def bridgeAttachmentIsCurrent (s : State) (k : Nat) (a : Attachment) : Bool :=
  s.activeBridge == some k && s.relay == some a.relay && s.relayUrl == some a.relayUrl &&
    !s.stopping && !s.disposed

/-- The active attachment has the given relay, URL and key. -/
def sameBridgeAttachment (s : State) (relay : Nat) (relayUrl keyId : String) : Bool :=
  (s.activeBridge.bind fun k => s.attachments[k]?).any fun a =>
    a.relay == relay && a.relayUrl == relayUrl && a.keyId == keyId

/-- `attachCrossPcBridge` up to its first await. -/
def attachCrossPcBridge (s : State) (keyId : Option String) : State :=
  match s.relay, s.relayUrl, keyId with
  | some relay, some relayUrl, some keyId =>
    if s.sameBridgeAttachment relay relayUrl keyId then { s with crossPcBridgeInput := true }
    else
      { s with
        crossPcBridgeInput := true
        node := if s.activeBridge.isSome then s.node.detachBridge else s.node
        activeBridge := some s.attachments.length
        attachments := s.attachments ++ [⟨relay, relayUrl, keyId, 0, .scheduled⟩] }
  | _, _, _ => { s with crossPcBridgeInput := true }

def setPhase (s : State) (k : Nat) (phase : Phase) : State :=
  match s.attachments[k]? with
  | none => s
  | some a => { s with attachments := s.attachments.set k { a with phase := phase } }

/-- The attachment calls `attachBridge`, which may return at once. -/
def callAttachBridge (s : State) (k : Nat) (a : Attachment) : State :=
  let node := s.node.attachBridge a.relay true (some k)
  { s with
    node := node
    attachments := s.attachments.set k
      { a with
        object := s.node.nextObject
        phase :=
          if node.setups.length = s.node.setups.length then .completing false else .attaching } }

/-- The attachment goes on after `attachBridge`. -/
def completeAttach (s : State) (k : Nat) (a : Attachment) (threw : Bool) : State :=
  let current := s.bridgeAttachmentIsCurrent k a
  if threw then { s with activeBridge := if current then none else s.activeBridge }
  else if current then s
  else
    { s with
      node := s.node.detachBridge
      activeBridge := if s.activeBridge = some k then none else s.activeBridge }

def detachCrossPcBridge (s : State) : State :=
  { s with
    activeBridge := none
    node :=
      if s.activeBridge.isSome || s.crossPcBridgeInput then s.node.detachBridge else s.node }

end State

/-! ## Steps -/

inductive Action
  /-- `attachBridge` of the node, called by another host. -/
  | attachBridge (relay : Nat) (keypair : Bool)
  | detachBridge
  /-- An await of a setup ends. -/
  | resolve (i : Nat) (ok : Bool)
  /-- A failover replaces the role, and the broker of a leader. -/
  | failover (leader : Bool)
  /-- A failover has registered. -/
  | reconnected
  /-- The registration of a failover fails. -/
  | failoverFailed
  /-- The node's own relay closes. -/
  | selfRelayClosed
  | attemptRelayReconnect
  /-- The transport's connection changes. -/
  | transport (relay : Option Nat) (relayUrl : Option String) (stopping disposed : Bool)
  | attachCrossPcBridge (keyId : Option String)
  | callAttachBridge (k : Nat)
  | completeAttach (k : Nat)
  | detachCrossPcBridge
  deriving DecidableEq

/-- The stage after the synchronous part that follows an await. -/
def Node.Outcome.stage : Node.Outcome → Stage
  | .waiting stage => stage
  | _ => .ended

/-- The phase of the attachment that awaits a setup. -/
def Node.Outcome.phase : Node.Outcome → Phase
  | .waiting _ => .attaching
  | .returned => .completing false
  | .threw => .completing true

/-- The node after an await of setup `i` has ended. -/
def Node.resolve (n : Node) (i : Nat) (u : Setup) (ok : Bool) : Node :=
  { (n.proceed u ok).1 with
    setups := (n.proceed u ok).1.setups.set i { u with stage := (n.proceed u ok).2.stage } }

def step (s : State) : Action → Option State
  | .attachBridge relay keypair =>
    some { s with node := s.node.attachBridge relay keypair none }
  | .detachBridge => some { s with node := s.node.detachBridge }
  | .resolve i ok =>
    match s.node.setups[i]? with
    | none => none
    | some u =>
      if u.stage = .ended then none
      else
        let s' := { s with node := s.node.resolve i u ok }
        some (match u.caller with
          | none => s'
          | some k => s'.setPhase k (s.node.proceed u ok).2.phase)
  | .failover leader => some { s with node := s.node.failover leader }
  | .reconnected =>
    if s.node.failovers = 0 then none
    else some { s with
      node := { s.node.onReconnect with failovers := s.node.failovers - 1 } }
  | .failoverFailed =>
    if s.node.failovers = 0 then none
    else some { s with node := { s.node with failovers := s.node.failovers - 1 } }
  | .selfRelayClosed =>
    if s.node.relayOwned then some { s with node := s.node.detachBridgeKeepingParams } else none
  | .attemptRelayReconnect => some { s with node := s.node.attemptRelayReconnect }
  | .transport relay relayUrl stopping disposed =>
    some { s with relay := relay, relayUrl := relayUrl, stopping := stopping, disposed := disposed }
  | .attachCrossPcBridge keyId => some (s.attachCrossPcBridge keyId)
  | .callAttachBridge k =>
    match s.attachments[k]? with
    | none => none
    | some a => if a.phase = .scheduled then some (s.callAttachBridge k a) else none
  | .completeAttach k =>
    match s.attachments[k]? with
    | none => none
    | some a =>
      match a.phase with
      | .completing threw => some ((s.completeAttach k a threw).setPhase k .done)
      | _ => none
  | .detachCrossPcBridge => some s.detachCrossPcBridge

/-- Nodes and transports from the joining of the mesh on. -/
def system : Machine State Action where
  Init s := ∃ leader selfManaged, s = .joined leader selfManaged
  step := step

/-! ## Order -/

/-- No call of the node is in progress. -/
def Node.Quiet (n : Node) : Prop := (∀ u ∈ n.setups, u.stage = .ended) ∧ n.failovers = 0

instance (n : Node) : Decidable n.Quiet :=
  inferInstanceAs (Decidable ((∀ u ∈ n.setups, u.stage = .ended) ∧ n.failovers = 0))

/-- The setup has constructed this remote and will install it. -/
def Node.hands (n : Node) (u : Setup) (remote : RemoteId) : Bool :=
  match u.stage with
  | .built relay built => built == remote && n.isBridgeEpochCurrent u relay
  | _ => false

/-- The router of a broker is the installed bridge, or one that is about to be installed. -/
def Node.Claimed (n : Node) (broker : BrokerId) : Prop :=
  ∃ remote ∈ n.routers broker, n.brokerRemote = some remote ∨
    ∃ u ∈ n.setups, n.hands u remote = true

instance (n : Node) (broker : BrokerId) : Decidable (n.Claimed broker) :=
  inferInstanceAs (Decidable (∃ remote ∈ n.routers broker, _))

/-- The setup has been superseded since its call. -/
def Node.Superseded (n : Node) (u : Setup) : Prop :=
  match u.stage with
  | .keypair relay => n.isBridgeEpochCurrent u relay = false
  | .discovering relay => n.isBridgeEpochCurrent u relay = false
  | .built relay _ => n.isBridgeEpochCurrent u relay = false
  | _ => n.isBridgeSetupCurrent u = false

/-- The setup has the broker of the node, and is about to replace or remove its router. -/
def Node.Reroutes (n : Node) (u : Setup) : Prop :=
  n.localBroker = some u.broker ∧
    match u.stage with
    | .discovering _ => True
    | .built _ _ => True
    | _ => False

instance (n : Node) : ∀ u, Decidable (n.Superseded u)
  | ⟨_, _, _, _, .keypair _⟩ => inferInstanceAs (Decidable (_ = false))
  | ⟨_, _, _, _, .discovering _⟩ => inferInstanceAs (Decidable (_ = false))
  | ⟨_, _, _, _, .built _ _⟩ => inferInstanceAs (Decidable (_ = false))
  | ⟨_, _, _, _, .identity⟩ => inferInstanceAs (Decidable (_ = false))
  | ⟨_, _, _, _, .connecting⟩ => inferInstanceAs (Decidable (_ = false))
  | ⟨_, _, _, _, .ended⟩ => inferInstanceAs (Decidable (_ = false))

instance (n : Node) : ∀ u, Decidable (n.Reroutes u)
  | ⟨_, _, _, _, .discovering _⟩ => inferInstanceAs (Decidable (_ ∧ True))
  | ⟨_, _, _, _, .built _ _⟩ => inferInstanceAs (Decidable (_ ∧ True))
  | ⟨_, _, _, _, .keypair _⟩ => inferInstanceAs (Decidable (_ ∧ False))
  | ⟨_, _, _, _, .identity⟩ => inferInstanceAs (Decidable (_ ∧ False))
  | ⟨_, _, _, _, .connecting⟩ => inferInstanceAs (Decidable (_ ∧ False))
  | ⟨_, _, _, _, .ended⟩ => inferInstanceAs (Decidable (_ ∧ False))

/-- The bridge comes from a later `attachBridge` than the attachment. -/
def State.Later (s : State) (a : Attachment) (remote : RemoteId) : Prop :=
  ∃ r ∈ s.node.remotes[remote]?, a.object < r.object

instance (s : State) (a : Attachment) (remote : RemoteId) : Decidable (s.Later a remote) :=
  inferInstanceAs (Decidable (∃ r ∈ s.node.remotes[remote]?, a.object < r.object))

/-- An attachment that is not active returns from `attachBridge`. -/
def State.Overtaken (s : State) (k : Nat) (a : Attachment) : Prop :=
  a.phase = .completing false ∧ s.bridgeAttachmentIsCurrent k a = false

instance (s : State) (k : Nat) (a : Attachment) : Decidable (s.Overtaken k a) :=
  inferInstanceAs (Decidable (_ ∧ _))

/-- A superseded setup constructs or detaches its remote only while the router of that broker is
not the node's bridge, an overtaken attachment returns only while no later bridge is installed,
and a failover fails only if it leaves an installed bridge its broker. -/
def InOrder (s : State) : Action → Prop
  | .resolve i _ =>
    ∀ u ∈ s.node.setups[i]?, s.node.Superseded u → s.node.Reroutes u → ¬ s.node.Claimed u.broker
  | .completeAttach k =>
    ∀ a ∈ s.attachments[k]?, s.Overtaken k a → ∀ remote ∈ s.node.brokerRemote, ¬ s.Later a remote
  | .failoverFailed =>
    ∀ remote ∈ s.node.brokerRemote, ∀ r ∈ s.node.remotes[remote]?,
      s.node.localBroker = some r.broker
  | _ => True

instance : ∀ s a, Decidable (InOrder s a)
  | s, .resolve i _ =>
    inferInstanceAs (Decidable (∀ u ∈ s.node.setups[i]?,
      s.node.Superseded u → s.node.Reroutes u → ¬ s.node.Claimed u.broker))
  | s, .completeAttach k =>
    inferInstanceAs (Decidable (∀ a ∈ s.attachments[k]?,
      s.Overtaken k a → ∀ remote ∈ s.node.brokerRemote, ¬ s.Later a remote))
  | s, .failoverFailed =>
    inferInstanceAs (Decidable (∀ remote ∈ s.node.brokerRemote, ∀ r ∈ s.node.remotes[remote]?,
      s.node.localBroker = some r.broker))
  | _, .attachBridge _ _ => .isTrue trivial
  | _, .detachBridge => .isTrue trivial
  | _, .failover _ => .isTrue trivial
  | _, .reconnected => .isTrue trivial
  | _, .selfRelayClosed => .isTrue trivial
  | _, .attemptRelayReconnect => .isTrue trivial
  | _, .transport _ _ _ _ => .isTrue trivial
  | _, .attachCrossPcBridge _ => .isTrue trivial
  | _, .callAttachBridge _ => .isTrue trivial
  | _, .detachCrossPcBridge => .isTrue trivial

end OutpostPi.Session.MeshNode
