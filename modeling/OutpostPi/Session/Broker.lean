import OutpostPi.Lib.Machine
import OutpostPi.Lib.Map
import OutpostPi.Lib.OrderedMap
import OutpostPi.Session.MeshEnvelope

/-!
# The broker of the local mesh

The broker knows every connection by its socket, and the registered ones by their address. A
connection registers with its first line, with any name and working directory, and every later
line is an envelope that the broker routes. What the broker does on a line or on the end of a
connection is a new state and the list of its writes.

The answers of the router to other computers, which may take an envelope for itself, and the
generator of identifiers are parameters.
-/

set_option autoImplicit false

namespace OutpostPi.Session

open OutpostPi.Lib

/-- The structured view of a peer. -/
structure PeerInfo where
  pc : Option String
  cwd : String
  name : List Char
  address : String

/-- A peer as `list_peers` reports it. -/
def PeerInfo.json (info : PeerInfo) : Json :=
  let pc : List (String × Json) := info.pc.toList.map fun label => ("pc", .string label)
  .object (pc ++ [("cwd", .string info.cwd), ("name", .string (String.ofList info.name)),
    ("address", .string info.address)])

/-- What the router to other computers answers during a call of the broker. -/
structure RemoteRouter where
  tryRouteOutbound : Bool
  listRemotePeers : List String
  listRemotePeerInfos : List PeerInfo

/-- A connection to the broker. -/
structure PeerConn where
  /-- The assigned name, empty until the connection is registered. -/
  name : List Char
  cwd : String
  address : String
  socket : Nat
  deriving DecidableEq

/-- What is written to a socket. -/
inductive Written
  | registerAck (addressAssigned : String) (nameAssigned : List Char)
  | envelope (env : Envelope)

/-- A line for a socket. -/
structure SocketWrite where
  socket : Nat
  content : Written

/-- The broker. A registered connection no longer changes, so `peers` holds a copy of it. -/
structure Broker where
  conns : Map Nat PeerConn
  peers : OrderedMap String PeerConn
  /-- The number of identifiers made so far. -/
  ids : Nat

namespace Broker

variable (uuidv7 : Nat → String)

/-! ## The roster -/

/-- The registered peers with what is reported of them. -/
def localPeerInfos (broker : Broker) : List PeerInfo :=
  broker.peers.values.map fun peer =>
    { pc := none, cwd := peer.cwd, name := peer.name, address := peer.address }

/-- The addresses of the peers, those of other PCs behind the own ones. -/
def allPeerNames (broker : Broker) (router : Option RemoteRouter) : List String :=
  broker.peers.keys ++ (router.map RemoteRouter.listRemotePeers).getD []

/-- The peers with what is reported of them, in the same order. -/
def allPeerInfos (broker : Broker) (router : Option RemoteRouter) : List PeerInfo :=
  broker.localPeerInfos ++ (router.map RemoteRouter.listRemotePeerInfos).getD []

/-! ## Envelopes of the broker -/

/-- An envelope from the broker with the identifier after `index` others. -/
def systemEnvelope (broker : Broker) (recipient : String) (index : Nat) (re : Option String)
    (body : Json) : Envelope where
  sender := brokerName
  recipients := .one recipient
  id := uuidv7 (broker.ids + index)
  re := re
  body := body

/-- The body of a notice that names a peer by its address. -/
def noticeBody (kind address : String) : Json :=
  .object [("type", .string kind), ("name", .string address), ("address", .string address)]

/-- The reply to `list_peers`. -/
def listPeersReply (broker : Broker) (router : Option RemoteRouter) : Json :=
  .object [("type", .string "list_peers_reply"),
    ("peers", .array ((broker.allPeerNames router).map .string)),
    ("peers_detailed", .array ((broker.allPeerInfos router).map PeerInfo.json))]

/-- The acknowledgement that the message for a target was received. -/
def ackBody (target : String) : Json :=
  .object [("type", .string "ack"), ("status", .string "received"), ("target", .string target)]

/-- Send a notice to every peer but one. -/
def broadcastSystem (broker : Broker) (body : Json) (excludeAddress : String) :
    Broker × List SocketWrite :=
  let others := broker.peers.entries.filter fun entry => entry.1 ≠ excludeAddress
  ({ broker with ids := broker.ids + others.length },
    others.zipIdx.map fun entry =>
      { socket := entry.1.2.socket
        content := .envelope (broker.systemEnvelope uuidv7 entry.1.1 entry.2 none body) })

/-! ## Registration -/

/-- Find a free name and address. The address is checked, so that a name collides only with the
same name in the same working directory. -/
def uniqueIdentity (broker : Broker) (cwd : String) (requested : List Char) :
    Option (List Char × String) :=
  let sanitized := sanitizeMeshName requested
  let address := composeAddress cwd sanitized
  if address ∉ broker.peers.keys then some (sanitized, address)
  else
    let base := (splitSuffix sanitized).1
    (List.range' 2 998).findSome? fun n =>
      let name := base ++ '#' :: (Nat.toDigits 10 n)
      let address := composeAddress cwd name
      if address ∉ broker.peers.keys then some (name, address) else none

/-- The name and the working directory that a register line asks for. -/
def registerRequest (line : Option Json) : Option (List Char × String) :=
  match line with
  | none => none
  | some json =>
    if json.hasString "type" "register" then
      match json.field "name" with
      | some (.string name) =>
        match json.field "cwd" with
        | some (.string cwd) => some (name.toList, cwd)
        | _ => some (name.toList, "")
      | _ => none
    else none

/-- A first line that registers the connection gives it a name and an address. -/
def handleRegister (broker : Broker) (conn : PeerConn) (line : Option Json) :
    Broker × List SocketWrite :=
  match registerRequest line with
  -- the socket is destroyed, and the connection goes when it closes
  | none => (broker, [])
  | some (requested, cwd) =>
    match broker.uniqueIdentity cwd requested with
    -- the name space is exhausted, and the call throws
    | none =>
      ({ broker with conns := broker.conns.insert conn.socket { conn with cwd := cwd } }, [])
    | some (name, address) =>
      let registered : PeerConn := { conn with cwd := cwd, name := name, address := address }
      let added : Broker :=
        { broker with
          conns := broker.conns.insert conn.socket registered
          peers := broker.peers.set address registered }
      let (notified, notices) :=
        added.broadcastSystem uuidv7 (noticeBody "peer_joined" address) address
      (notified, { socket := conn.socket, content := .registerAck address name } :: notices)

/-- Answer a request for the peers on a connection that is not registered. -/
def tryObserverProbe (broker : Broker) (conn : PeerConn) (line : Option Json)
    (router : Option RemoteRouter) : Option (Broker × List SocketWrite) :=
  match line with
  | none => none
  | some json =>
    if json.hasString "type" "list_peers" then
      let reply := broker.systemEnvelope uuidv7 "observer" 0 none (broker.listPeersReply router)
      some ({ broker with ids := broker.ids + 1 },
        [{ socket := conn.socket, content := .envelope reply }])
    else none

/-! ## Routing -/

/-- The addresses that the recipients of an envelope name, never that of the sender. -/
def resolveTargets (broker : Broker) (env : Envelope) : List String :=
  match env.recipients with
  | .one name =>
    if name = broadcastName then
      let scope := ((broker.peers.get? env.sender).map PeerConn.cwd).getD ""
      (broker.peers.values.filter fun peer =>
        peer.address ≠ env.sender && peer.cwd = scope).map PeerConn.address
    else if name = env.sender then []
    else [name]
  | .many names => names.filter fun name => name ≠ env.sender

/-- Tell the sender that a target has received its message. -/
def sendAckToSender (broker : Broker) (env : Envelope) (target : String) :
    Broker × List SocketWrite :=
  match broker.peers.get? env.sender with
  | none => (broker, [])
  | some sender =>
    ({ broker with ids := broker.ids + 1 },
      [{ socket := sender.socket
         content := .envelope
          (broker.systemEnvelope uuidv7 env.sender 0 (some env.id) (ackBody target)) }])

/-- Write an envelope to every target that is there, and acknowledge it if it has one recipient. -/
def deliverTo (broker : Broker) (env : Envelope) (isUnicast : Bool) :
    List String → Broker × List SocketWrite
  | [] => (broker, [])
  | target :: rest =>
    match broker.peers.get? target with
    | none => broker.deliverTo env isUnicast rest
    | some peer =>
      let (acked, ack) :=
        if isUnicast then broker.sendAckToSender uuidv7 env target else (broker, [])
      let (delivered, more) := acked.deliverTo env isUnicast rest
      (delivered, { socket := peer.socket, content := .envelope env } :: ack ++ more)

/-- A message to the broker itself. -/
def handleBrokerMessage (broker : Broker) (env : Envelope) (router : Option RemoteRouter) :
    Broker × List SocketWrite :=
  if env.body.hasString "type" "list_peers" then
    match broker.peers.get? env.sender with
    | none => ({ broker with ids := broker.ids + 1 }, [])
    | some peer =>
      let reply := broker.systemEnvelope uuidv7 env.sender 0 (some env.id)
        (broker.listPeersReply router)
      ({ broker with ids := broker.ids + 1 },
        [{ socket := peer.socket, content := .envelope reply }])
  else (broker, [])

/-- The envelope names a single recipient. -/
def isOne (recipients : Recipients) : Bool :=
  match recipients with
  | .one _ => true
  | .many _ => false

/-- Deliver an envelope to its recipients, here or on another PC. -/
def route (broker : Broker) (env : Envelope) (router : Option RemoteRouter) :
    Broker × List SocketWrite :=
  if env.recipients = .one brokerName then broker.handleBrokerMessage uuidv7 env router
  else if isOne env.recipients && (router.map RemoteRouter.tryRouteOutbound).getD false then
    (broker, [])
  else
    let isUnicast := isOne env.recipients && env.recipients ≠ .one broadcastName
    broker.deliverTo uuidv7 env isUnicast (broker.resolveTargets env)

/-- Deliver an envelope from another computer, under the sender that it names. Nothing is written
where the answer is `denied`. -/
def injectFromRemote (broker : Broker) (env : Envelope) : Option SocketWrite :=
  match env.recipients with
  | .many _ => none
  | .one name =>
    if name = broadcastName ∨ name = brokerName then none
    else
      (broker.peers.get? name).map fun peer =>
        { socket := peer.socket, content := .envelope env }

/-! ## Connections -/

/-- A line of a connection. The first one registers it, or probes the broker. -/
def handleLine (broker : Broker) (conn : PeerConn) (line : Option Json)
    (router : Option RemoteRouter) : Broker × List SocketWrite :=
  if conn.name = [] then
    match broker.tryObserverProbe uuidv7 conn line router with
    | some probed => probed
    | none => broker.handleRegister uuidv7 conn line
  else
    match line.bind parse with
    | none => (broker, [])
    | some env => broker.route uuidv7 { env with sender := conn.address } router

/-- A connection is gone, and the others are told. -/
def onClose (broker : Broker) (conn : PeerConn) : Broker × List SocketWrite :=
  let closed : Broker := { broker with conns := broker.conns.erase conn.socket }
  if conn.address = "" then (closed, [])
  else
    let left : Broker := { closed with peers := closed.peers.erase conn.address }
    left.broadcastSystem uuidv7 (noticeBody "peer_left" conn.address) conn.address

end Broker

/-- What happens at the broker. A line that is no JSON text is absent. -/
inductive BrokerEvent
  | connection (socket : Nat)
  | line (socket : Nat) (line : Option Json) (router : Option RemoteRouter)
  | close (socket : Nat)

/-- The connection that an event is about. -/
def BrokerEvent.socket : BrokerEvent → Nat
  | .connection socket => socket
  | .line socket _ _ => socket
  | .close socket => socket

namespace Broker

variable (uuidv7 : Nat → String)

/-- The state after an event, and what was written meanwhile. -/
def handle (broker : Broker) : BrokerEvent → Option (Broker × List SocketWrite)
  | .connection socket =>
    match broker.conns.lookup socket with
    | some _ => none
    | none =>
      some ({ broker with
        conns := broker.conns.insert socket
          { name := [], cwd := "", address := "", socket := socket } }, [])
  | .line socket line router =>
    (broker.conns.lookup socket).map fun conn => broker.handleLine uuidv7 conn line router
  | .close socket => (broker.conns.lookup socket).map fun conn => broker.onClose uuidv7 conn

/-- A broker without connections. -/
def initial : Broker where
  conns := ∅
  peers := .empty
  ids := 0

/-- The broker as a machine over the events of its sockets. -/
def machine : Machine Broker BrokerEvent where
  Init broker := broker = initial
  step broker event := (broker.handle uuidv7 event).map Prod.fst

end Broker

end OutpostPi.Session
