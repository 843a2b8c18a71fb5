import OutpostPi.Session.Broker

/-!
# What local peers get from the broker

The broker keeps one entry for every registered connection, under its address (`Consistent`). An
envelope then reaches each target through that entry, under the address that the sender
registered, and the one acknowledgement of a delivery to one recipient goes back by the entry of
the sender.

`local_routing` collects what holds in every reachable state. A list is not freed of repetitions,
so a peer that it names twice gets the envelope twice, and a peer that registers makes the broker
send a notice to every other one (`exists_repeated_delivery_and_notice`).
-/

set_option autoImplicit false

namespace OutpostPi.Session.Broker

open OutpostPi.Lib OutpostPi.Lib.Machine

variable {uuidv7 : Nat → String}

/-! ## The roster -/

/-- The connection is registered. -/
def Registered (broker : Broker) (conn : PeerConn) : Prop :=
  broker.conns.lookup conn.socket = some conn ∧ conn.name ≠ []

instance (broker : Broker) (conn : PeerConn) : Decidable (broker.Registered conn) :=
  inferInstanceAs (Decidable (_ ∧ _))

structure Consistent (broker : Broker) : Prop where
  /-- The peers are the registered connections, each of them under its address. -/
  listed : ∀ address conn, (address, conn) ∈ broker.peers.entries ↔
    broker.Registered conn ∧ conn.address = address
  sockets : ∀ socket conn, broker.conns.lookup socket = some conn → conn.socket = socket
  unnamed : ∀ socket conn, broker.conns.lookup socket = some conn → conn.name = [] →
    conn.address = ""
  /-- An address is composed from a working directory and an assignable name. -/
  named : ∀ conn, broker.Registered conn → conn.address ≠ "" ∧
    conn.address ≠ brokerName ∧ conn.address ≠ broadcastName

/-- Nothing but the number of identifiers has changed. -/
structure SameRoster (broker broker' : Broker) : Prop where
  conns : broker'.conns = broker.conns
  peers : broker'.peers = broker.peers

/-- A broker has the roster it has. -/
theorem SameRoster.refl (broker : Broker) : SameRoster broker broker := ⟨rfl, rfl⟩

variable {broker' : Broker}

/-- Two steps that leave the roster alone leave it alone together. -/
theorem SameRoster.trans {broker broker'' : Broker} (first : SameRoster broker broker')
    (second : SameRoster broker' broker'') : SameRoster broker broker'' :=
  ⟨second.conns.trans first.conns, second.peers.trans first.peers⟩

/-- The same connections are registered. -/
theorem SameRoster.registered {broker : Broker} (same : SameRoster broker broker')
    {conn : PeerConn} : broker'.Registered conn ↔ broker.Registered conn := by
  rw [Registered, Registered, same.conns]

/-- Consistency is a property of the roster alone. -/
theorem Consistent.congr {broker : Broker} (consistent : broker.Consistent)
    (same : SameRoster broker broker') : broker'.Consistent where
  listed address conn := by rw [same.peers, same.registered, consistent.listed]
  sockets := same.conns ▸ consistent.sockets
  unnamed := same.conns ▸ consistent.unnamed
  named conn registered := consistent.named conn (same.registered.mp registered)

variable {broker : Broker}

variable {address : String}

/-- The peer map finds a connection exactly when it is registered under that address. -/
theorem Consistent.get?_eq_some_iff (consistent : broker.Consistent) {conn : PeerConn} :
    broker.peers.get? address = some conn ↔ broker.Registered conn ∧ conn.address = address := by
  rw [OrderedMap.get?_eq_some_iff, consistent.listed]

/-- Registered connections with one address are one connection. -/
theorem Consistent.distinct (consistent : broker.Consistent) {first second : PeerConn}
    (one : broker.Registered first) (other : broker.Registered second)
    (same : first.address = second.address) : first = second := by
  have found := consistent.get?_eq_some_iff.mpr ⟨one, same⟩
  rw [consistent.get?_eq_some_iff.mpr ⟨other, rfl⟩] at found
  exact (Option.some.inj found).symm

/-- Every peer is listed under its own address. -/
theorem Consistent.keys (consistent : broker.Consistent) :
    broker.peers.values.map PeerConn.address = broker.peers.keys := by
  rw [OrderedMap.values, List.map_map, OrderedMap.keys]
  refine List.map_congr_left fun entry mem => ?_
  exact ((consistent.listed entry.1 entry.2).mp mem).2

/-! ## The frame of the writes -/

/-- A notice only writes to sockets and draws ids. -/
theorem sameRoster_broadcastSystem (broker : Broker) (body : Json) (excluded : String) :
    SameRoster broker (broker.broadcastSystem uuidv7 body excluded).1 := ⟨rfl, rfl⟩

/-- An acknowledgement only writes to the sender's socket. -/
theorem sameRoster_sendAckToSender (broker : Broker) (env : Envelope) (target : String) :
    SameRoster broker (broker.sendAckToSender uuidv7 env target).1 := by
  rw [sendAckToSender]
  split
  · exact .refl broker
  · exact ⟨rfl, rfl⟩

/-- Delivering an envelope leaves the roster alone. -/
theorem sameRoster_deliverTo (broker : Broker) (env : Envelope) (isUnicast : Bool)
    (targets : List String) :
    SameRoster broker (broker.deliverTo uuidv7 env isUnicast targets).1 := by
  induction targets generalizing broker with
  | nil => exact .refl broker
  | cons target rest ih =>
    rw [deliverTo]
    split
    · exact ih broker
    · cases isUnicast with
      | false => exact ih broker
      | true => exact (sameRoster_sendAckToSender broker env target).trans (ih _)

/-- Routing an envelope leaves the roster alone. -/
theorem sameRoster_route (broker : Broker) (env : Envelope) (router : Option RemoteRouter) :
    SameRoster broker (broker.route uuidv7 env router).1 := by
  rw [route]
  split
  · rw [handleBrokerMessage]
    split
    · split
      · exact ⟨rfl, rfl⟩
      · exact ⟨rfl, rfl⟩
    · exact .refl broker
  · split
    · exact .refl broker
    · exact sameRoster_deliverTo broker env _ _

/-! ## Registration -/

/-- A name that the broker finds is assignable, and its address is free. -/
theorem uniqueIdentity_some {cwd : String} {requested name : List Char}
    (found : broker.uniqueIdentity cwd requested = some (name, address)) :
    address = composeAddress cwd name ∧ Assignable name ∧ address ∉ broker.peers.keys := by
  have assignable := assignable_sanitizeMeshName requested
  rw [uniqueIdentity] at found
  split at found
  · next free =>
    cases found
    exact ⟨rfl, assignable, free⟩
  · obtain ⟨n, -, chosen⟩ := List.exists_of_findSome?_eq_some found
    dsimp only at chosen
    split at chosen
    · next free =>
      cases chosen
      refine ⟨rfl, ?_, free⟩
      have base : '@' ∉ (splitSuffix (sanitizeMeshName requested)).1 := by
        intro mem
        refine assignable.atFree ?_
        rw [← (splitSuffix_eq (sanitizeMeshName requested)).1]
        exact List.mem_append_left _ mem
      refine ⟨by simp, ?_, Or.inl (by simp)⟩
      rw [List.mem_append, List.mem_cons, not_or, not_or]
      refine ⟨base, by decide, fun mem => ?_⟩
      exact absurd (Nat.isDigit_of_mem_toDigits (by decide) (by decide) mem) (by decide)
    · cases chosen

/-- An assignable name gives an address that is not empty. -/
theorem composeAddress_ne_empty {cwd : String} {name : List Char} (assignable : Assignable name) :
    composeAddress cwd name ≠ "" := by
  rw [composeAddress, Ne, ← String.toList_inj]
  split
  · rw [String.toList_ofList]
    exact assignable.nonempty
  · simp

variable {other : PeerConn} {peers : OrderedMap String PeerConn}

/-- A connection that is registered in a state where its socket changes is the new one, or has
another socket. -/
theorem registered_insert {conn : PeerConn} {ids : Nat} :
    Registered { conns := broker.conns.insert conn.socket conn, peers := peers, ids := ids } other ↔
      (other = conn ∧ conn.name ≠ []) ∨ (other.socket ≠ conn.socket ∧ broker.Registered other) := by
  rw [Registered, Registered]
  by_cases same : other.socket = conn.socket
  · rw [same, AList.lookup_insert, Option.some_inj]
    constructor
    · rintro ⟨rfl, named⟩
      exact Or.inl ⟨rfl, named⟩
    · rintro (⟨rfl, named⟩ | ⟨differs, -⟩)
      · exact ⟨rfl, named⟩
      · exact absurd rfl differs
  · rw [AList.lookup_insert_ne same]
    constructor
    · exact fun registered => Or.inr ⟨same, registered⟩
    · rintro (⟨rfl, -⟩ | ⟨-, registered⟩)
      · exact absurd rfl same
      · exact registered

/-- What the connections hold after an insertion was inserted or was there before. -/
theorem of_lookup_insert {conn : PeerConn} {socket : Nat}
    (found : (broker.conns.insert conn.socket conn).lookup socket = some other) :
    (socket = conn.socket ∧ conn = other) ∨ broker.conns.lookup socket = some other := by
  by_cases same : socket = conn.socket
  · rw [same, AList.lookup_insert] at found
    exact Or.inl ⟨same, Option.some.inj found⟩
  · rw [AList.lookup_insert_ne same] at found
    exact Or.inr found

/-- A change of a connection that stays unregistered. -/
theorem Consistent.insert_unnamed (consistent : broker.Consistent) (conn : PeerConn)
    (unnamed : conn.name = []) (noAddress : conn.address = "")
    (before : ∀ other, broker.conns.lookup conn.socket = some other → other.name = []) :
    Consistent { broker with conns := broker.conns.insert conn.socket conn } := by
  have registered (other : PeerConn) :
      Registered { broker with conns := broker.conns.insert conn.socket conn } other ↔
        broker.Registered other := by
    rw [registered_insert]
    constructor
    · rintro (⟨-, named⟩ | ⟨-, registered⟩)
      · exact absurd unnamed named
      · exact registered
    · intro registered
      refine Or.inr ⟨fun same => registered.2 (before other ?_), registered⟩
      rw [← same]
      exact registered.1
  constructor
  case listed =>
    intro address other
    rw [registered]
    exact consistent.listed address other
  case sockets =>
    intro socket other found
    rcases of_lookup_insert found with ⟨rfl, rfl⟩ | before
    · rfl
    · exact consistent.sockets socket other before
  case unnamed =>
    intro socket other found
    rcases of_lookup_insert found with ⟨rfl, rfl⟩ | before
    · exact fun _ => noAddress
    · exact consistent.unnamed socket other before
  case named => exact fun other known => consistent.named other ((registered other).mp known)

/-- A connection joins under a free address. -/
theorem Consistent.register (consistent : broker.Consistent) (conn : PeerConn)
    (assignable : Assignable conn.name)
    (composed : conn.address = composeAddress conn.cwd conn.name)
    (free : conn.address ∉ broker.peers.keys)
    (before : ∀ other, broker.conns.lookup conn.socket = some other → other.name = []) :
    Consistent { broker with
      conns := broker.conns.insert conn.socket conn
      peers := broker.peers.set conn.address conn } := by
  constructor
  case listed =>
    intro address other
    rw [registered_insert]
    change (address, other) ∈ (broker.peers.set conn.address conn).entries ↔ _
    rw [OrderedMap.entries_set_of_not_mem free, List.mem_append, List.mem_singleton,
      Prod.mk.injEq, consistent.listed]
    constructor
    · rintro (⟨registered, rfl⟩ | ⟨rfl, rfl⟩)
      · refine ⟨Or.inr ⟨fun same => registered.2 (before other ?_), registered⟩, rfl⟩
        rw [← same]
        exact registered.1
      · exact ⟨Or.inl ⟨rfl, assignable.nonempty⟩, rfl⟩
    · rintro ⟨⟨rfl, -⟩ | ⟨-, registered⟩, rfl⟩
      · exact Or.inr ⟨rfl, rfl⟩
      · exact Or.inl ⟨registered, rfl⟩
  case sockets =>
    intro socket other found
    rcases of_lookup_insert found with ⟨rfl, rfl⟩ | before
    · rfl
    · exact consistent.sockets socket other before
  case unnamed =>
    intro socket other found
    rcases of_lookup_insert found with ⟨rfl, rfl⟩ | before
    · exact fun unnamed => absurd unnamed assignable.nonempty
    · exact consistent.unnamed socket other before
  case named =>
    intro other known
    rcases registered_insert.mp known with ⟨rfl, -⟩ | ⟨-, registered⟩
    · rw [composed]
      exact ⟨composeAddress_ne_empty assignable, composeAddress_ne_reserved assignable⟩
    · exact consistent.named other registered

/-- Closing a socket unregisters its connection and no other. -/
theorem registered_erase {socket : Nat} {ids : Nat} :
    Registered { conns := broker.conns.erase socket, peers := peers, ids := ids } other ↔
      other.socket ≠ socket ∧ broker.Registered other := by
  rw [Registered, Registered]
  by_cases same : other.socket = socket
  · rw [same, AList.lookup_erase]
    simp
  · rw [AList.lookup_erase_ne same]
    exact (and_iff_right same).symm

/-- A connection goes, with its entry where it has one. -/
theorem Consistent.remove (consistent : broker.Consistent) {conn : PeerConn}
    (found : broker.conns.lookup conn.socket = some conn) (rest : ∀ entry, entry ∈ peers.entries ↔
      entry ∈ broker.peers.entries ∧ entry.1 ≠ conn.address) :
    Consistent { broker with conns := broker.conns.erase conn.socket, peers := peers } := by
  constructor
  case listed =>
    intro address other
    rw [registered_erase]
    change (address, other) ∈ peers.entries ↔ _
    rw [rest, consistent.listed]
    constructor
    · rintro ⟨⟨registered, rfl⟩, differs⟩
      refine ⟨⟨fun same => differs ?_, registered⟩, rfl⟩
      have one := registered.1
      rw [same, found] at one
      cases one
      rfl
    · rintro ⟨⟨differs, registered⟩, rfl⟩
      refine ⟨⟨registered, rfl⟩, fun same => differs ?_⟩
      by_cases unnamed : conn.name = []
      · exact absurd (same.trans (consistent.unnamed _ conn found unnamed))
          (consistent.named other registered).1
      · rw [consistent.distinct registered ⟨found, unnamed⟩ same]
  case sockets =>
    intro socket other known
    exact consistent.sockets socket other (Map.lookup_of_erase known)
  case unnamed =>
    intro socket other known
    exact consistent.unnamed socket other (Map.lookup_of_erase known)
  case named => exact fun other known => consistent.named other (registered_erase.mp known).2

/-! ## Runs -/

/-- A registration, granted or refused, keeps the broker consistent. -/
theorem consistent_handleRegister (consistent : broker.Consistent) {conn : PeerConn}
    (found : broker.conns.lookup conn.socket = some conn) (unnamed : conn.name = [])
    (line : Option Json) : (broker.handleRegister uuidv7 conn line).1.Consistent := by
  have before (other : PeerConn) (also : broker.conns.lookup conn.socket = some other) :
      other.name = [] := by
    rw [found] at also
    cases also
    exact unnamed
  unfold handleRegister
  split
  · exact consistent
  · next requested cwd request =>
    split
    · exact consistent.insert_unnamed { conn with cwd := cwd } unnamed
        (consistent.unnamed _ conn found unnamed) before
    · next name address chosen =>
      obtain ⟨composed, assignable, free⟩ := uniqueIdentity_some chosen
      have joined := consistent.register
        { conn with cwd := cwd, name := name, address := address } assignable composed free before
      exact joined.congr ⟨rfl, rfl⟩

/-- Every line of a connection keeps the broker consistent. -/
theorem consistent_handleLine (uuidv7 : Nat → String) (consistent : broker.Consistent)
    {conn : PeerConn} (found : broker.conns.lookup conn.socket = some conn) (line : Option Json)
    (router : Option RemoteRouter) :
    (broker.handleLine uuidv7 conn line router).1.Consistent := by
  rw [handleLine]
  split
  · next unnamed =>
    split
    · next probed probe =>
      unfold tryObserverProbe at probe
      split at probe
      · cases probe
      · split at probe
        · cases probe
          exact consistent.congr ⟨rfl, rfl⟩
        · cases probe
    · exact consistent_handleRegister consistent found unnamed line
  · split
    · exact consistent
    · exact consistent.congr (sameRoster_route broker _ router)

/-- Every closing of a socket keeps the broker consistent. -/
theorem consistent_onClose (uuidv7 : Nat → String) (consistent : broker.Consistent)
    {conn : PeerConn} (found : broker.conns.lookup conn.socket = some conn) :
    (broker.onClose uuidv7 conn).1.Consistent := by
  rw [onClose]
  split
  · next noAddress =>
    refine consistent.remove found fun entry => ?_
    rw [noAddress, iff_self_and]
    intro mem
    obtain ⟨registered, address⟩ := (consistent.listed entry.1 entry.2).mp mem
    rw [← address]
    exact (consistent.named _ registered).1
  · exact (consistent.remove found fun entry => OrderedMap.mem_entries_erase).congr
      (sameRoster_broadcastSystem _ _ _)

/-- The step lemma: every event keeps the broker consistent. -/
theorem consistent_handle (consistent : broker.Consistent) {event : BrokerEvent}
    {writes : List SocketWrite} (handled : broker.handle uuidv7 event = some (broker', writes)) :
    broker'.Consistent := by
  cases event with
  | connection socket =>
    rw [handle] at handled
    split at handled
    · cases handled
    · next unknown =>
      cases handled
      refine consistent.insert_unnamed
        { name := [], cwd := "", address := "", socket := socket } rfl rfl fun other found => ?_
      rw [unknown] at found
      cases found
  | line socket line router =>
    obtain ⟨conn, found, same⟩ := Option.map_eq_some_iff.mp handled
    have own := consistent.sockets socket conn found
    subst own
    have kept := consistent_handleLine uuidv7 consistent found line router
    rw [same] at kept
    exact kept
  | close socket =>
    obtain ⟨conn, found, same⟩ := Option.map_eq_some_iff.mp handled
    have own := consistent.sockets socket conn found
    subst own
    have kept := consistent_onClose uuidv7 consistent found
    rw [same] at kept
    exact kept

/-- The broker with no connection is consistent. -/
theorem consistent_initial : initial.Consistent where
  listed address conn := by
    refine iff_of_false List.not_mem_nil fun registered => ?_
    cases registered.1.1
  sockets socket conn found := by cases found
  unnamed socket conn found := by cases found
  named conn registered := by cases registered.1

/-- The broker is consistent in every reachable state. -/
theorem consistent_of_reachable (reached : (machine uuidv7).Reachable broker) :
    broker.Consistent := by
  refine reached.invariant ?_ ?_
  · rintro _ rfl
    exact consistent_initial
  · intro before event after consistent _ taken
    obtain ⟨result, handled, rfl⟩ := Option.map_eq_some_iff.mp taken
    exact consistent_handle consistent handled

/-! ## What a notice is -/

/-- A notice to another peer that a peer has joined or left. -/
def IsNotice (w : SocketWrite) (kind address : String) : Prop :=
  ∃ recipient id, w.content = .envelope
    { sender := brokerName, recipients := .one recipient, id := id, re := none,
      body := noticeBody kind address }

variable {w : SocketWrite}

/-- What a notice writes is that notice, on another peer's socket. -/
theorem isNotice_of_mem {kind : String}
    (mem : w ∈ (broker.broadcastSystem uuidv7 (noticeBody kind address) address).2) :
    IsNotice w kind address := by
  obtain ⟨entry, -, rfl⟩ := List.mem_map.mp mem
  exact ⟨_, _, rfl⟩

/-! ## What an envelope becomes -/

section Routing

variable {env : Envelope} {conn : PeerConn}

/-- An acknowledgement to a connection. -/
def IsAck (env : Envelope) (target : String) (w : SocketWrite) : Prop :=
  ∃ id, w.content = .envelope
    { sender := brokerName, recipients := .one env.sender, id := id, re := some env.id,
      body := ackBody target }

/-- A known sender gets one acknowledgement, on its own socket. -/
theorem sendAckToSender_eq (known : broker.peers.get? env.sender = some conn) (target : String) :
    ∃ ack : SocketWrite, (broker.sendAckToSender uuidv7 env target).2 = [ack] ∧
      ack.socket = conn.socket ∧ IsAck env target ack := by
  unfold sendAckToSender
  rw [known]
  exact ⟨_, rfl, rfl, _, rfl⟩

/-- What one target adds to the writes. -/
theorem deliverTo_cons (uuidv7 : Nat → String)
    (known : broker.peers.get? env.sender = some conn) (isUnicast : Bool)
    {target : String} {peer : PeerConn} (found : broker.peers.get? target = some peer)
    (rest : List String) :
    ∃ (broker' : Broker) (acks : List SocketWrite), SameRoster broker broker' ∧
      (broker.deliverTo uuidv7 env isUnicast (target :: rest)).2 =
        { socket := peer.socket, content := .envelope env } :: acks ++
          (broker'.deliverTo uuidv7 env isUnicast rest).2 ∧
      ((isUnicast = false ∧ acks = []) ∨
        ∃ ack : SocketWrite, acks = [ack] ∧ ack.socket = conn.socket ∧ IsAck env target ack) := by
  rw [deliverTo, found]
  cases isUnicast with
  | false => exact ⟨broker, [], .refl broker, rfl, Or.inl ⟨rfl, rfl⟩⟩
  | true =>
    exact ⟨_, _, sameRoster_sendAckToSender broker env target, rfl,
      Or.inr (sendAckToSender_eq known target)⟩

/-- A write is the envelope to a target, or an acknowledgement to the sender. -/
theorem mem_deliverTo (known : broker.peers.get? env.sender = some conn) {isUnicast : Bool}
    {targets : List String} (mem : w ∈ (broker.deliverTo uuidv7 env isUnicast targets).2) :
    (w.content = .envelope env ∧
      ∃ target ∈ targets, ∃ peer, broker.peers.get? target = some peer ∧
        w.socket = peer.socket) ∨
    (w.socket = conn.socket ∧ ∃ target, IsAck env target w) := by
  induction targets generalizing broker with
  | nil => exact absurd mem List.not_mem_nil
  | cons target rest ih =>
    cases found : broker.peers.get? target with
    | none =>
      rw [deliverTo, found] at mem
      refine (ih known mem).imp_left ?_
      rintro ⟨same, other, listed, rest⟩
      exact ⟨same, other, List.mem_cons_of_mem _ listed, rest⟩
    | some peer =>
      obtain ⟨broker', acks, roster, writes, acked⟩ :=
        deliverTo_cons uuidv7 known isUnicast found rest
      rw [writes, List.cons_append, List.mem_cons, List.mem_append] at mem
      rcases mem with rfl | isAck | later
      · exact Or.inl ⟨rfl, target, List.mem_cons_self, peer, found, rfl⟩
      · rcases acked with ⟨-, rfl⟩ | ⟨ack, rfl, socket, ack⟩
        · exact absurd isAck List.not_mem_nil
        · rw [List.mem_singleton.mp isAck]
          exact Or.inr ⟨socket, target, ack⟩
      · refine (ih (roster.peers ▸ known) later).imp_left ?_
        rintro ⟨same, other, listed, rest⟩
        rw [roster.peers] at rest
        exact ⟨same, other, List.mem_cons_of_mem _ listed, rest⟩

/-- Another connection gets as many writes as the targets name it. -/
theorem countP_deliverTo (consistent : broker.Consistent)
    (known : broker.peers.get? env.sender = some conn) (isUnicast : Bool)
    (registered : broker.Registered other) (differs : other.socket ≠ conn.socket)
    (targets : List String) :
    (broker.deliverTo uuidv7 env isUnicast targets).2.countP (fun w => w.socket = other.socket) =
      targets.count other.address := by
  have own := consistent.get?_eq_some_iff.mpr ⟨registered, rfl⟩
  induction targets generalizing broker with
  | nil => rfl
  | cons target rest ih =>
    cases found : broker.peers.get? target with
    | none =>
      rw [deliverTo, found, List.count_cons_of_ne, ih consistent known registered own]
      rintro rfl
      rw [found] at own
      cases own
    | some peer =>
      obtain ⟨broker', acks, roster, writes, acked⟩ :=
        deliverTo_cons uuidv7 known isUnicast found rest
      have later := ih (consistent.congr roster) (roster.peers ▸ known)
        (roster.registered.mpr registered) (roster.peers ▸ own)
      have noAck : acks.countP (fun w => w.socket = other.socket) = 0 := by
        rcases acked with ⟨-, rfl⟩ | ⟨ack, rfl, socket, -⟩
        · rfl
        · simpa [socket] using Ne.symm differs
      have reaches : peer.socket = other.socket ↔ target = other.address := by
        obtain ⟨there, address⟩ := consistent.get?_eq_some_iff.mp found
        constructor
        · intro same
          have one := there.1
          rw [same, registered.1] at one
          cases one
          exact address.symm
        · intro same
          rw [consistent.distinct there registered (address.trans same)]
      rw [writes, List.cons_append, List.countP_cons, List.countP_append, noAck, later,
        List.count_cons]
      simp [reaches]

/-- The sender is no target of its envelope. -/
theorem sender_not_mem_resolveTargets (broker : Broker) (env : Envelope) :
    env.sender ∉ broker.resolveTargets env := by
  unfold resolveTargets
  split
  · next name _ =>
    split
    · intro mem
      obtain ⟨peer, listed, same⟩ := List.mem_map.mp mem
      have kept := (List.mem_filter.mp listed).2
      rw [same] at kept
      simp at kept
    · split
      · exact List.not_mem_nil
      · next differs =>
        intro mem
        exact differs (List.mem_singleton.mp mem).symm
  · intro mem
    simpa using (List.mem_filter.mp mem).2

/-- The targets have an address at most as often as the recipients name it. -/
theorem count_resolveTargets_le (consistent : broker.Consistent) (env : Envelope)
    (address : String) :
    (broker.resolveTargets env).count address ≤ env.recipients.mentions address := by
  unfold resolveTargets
  split
  · next name one =>
    rw [one, Recipients.mentions]
    split
    · next all =>
      rw [if_pos (Or.inl all)]
      refine List.nodup_iff_count_le_one.mp ?_ address
      have distinct := broker.peers.distinct
      have keys := consistent.keys
      rw [OrderedMap.keys] at keys
      rw [← keys] at distinct
      exact distinct.sublist (List.filter_sublist.map _)
    · split
      · exact Nat.zero_le _
      · rw [List.count_singleton]
        split
        · next same =>
          rw [if_pos (Or.inr (by simpa using same))]
        · exact Nat.zero_le _
  · next names listed =>
    rw [listed, Recipients.mentions]
    exact List.filter_sublist.count_le address

/-- What an envelope of a registered connection causes. -/
structure Routed (broker : Broker) (conn : PeerConn) (env : Envelope) (claimed : Bool)
    (writes : List SocketWrite) : Prop where
  /-- Another connection gets the envelope under the registered address of the sender, and
  nothing else. -/
  authentic : ∀ w ∈ writes, w.socket ≠ conn.socket →
    w.content = .envelope { env with sender := conn.address }
  /-- The sender gets replies of the broker, and never its envelope. -/
  replies : ∀ w ∈ writes, w.socket = conn.socket →
    ∃ reply, w.content = .envelope reply ∧ reply.sender = brokerName ∧ reply.re = some env.id
  /-- Another peer gets at most as many writes as the recipients name it. -/
  atMost : ∀ other, broker.Registered other → other.socket ≠ conn.socket →
    writes.countP (fun w => w.socket = other.socket) ≤ env.recipients.mentions other.address
  /-- One recipient that is here gets the envelope, and the sender one acknowledgement. -/
  acknowledged : ∀ other, broker.Registered other → other.socket ≠ conn.socket →
    env.recipients = .one other.address → claimed = false →
    ∃ ack forwarded : SocketWrite, writes = [forwarded, ack] ∧
      forwarded.socket = other.socket ∧
      forwarded.content = .envelope { env with sender := conn.address } ∧
      ack.socket = conn.socket ∧ IsAck { env with sender := conn.address } other.address ack

/-- Delivering an envelope of a registered peer routes it as the claim says. -/
theorem routed_deliverTo (consistent : broker.Consistent) (registered : broker.Registered conn)
    (env : Envelope) (claimed : Bool) :
    Routed broker conn env claimed
      (broker.deliverTo uuidv7 { env with sender := conn.address }
        (isOne env.recipients && env.recipients ≠ .one broadcastName)
        (broker.resolveTargets { env with sender := conn.address })).2 := by
  have known : broker.peers.get? ({ env with sender := conn.address } : Envelope).sender =
      some conn := consistent.get?_eq_some_iff.mpr ⟨registered, rfl⟩
  constructor
  case authentic =>
    intro w mem differs
    rcases mem_deliverTo known mem with ⟨same, -⟩ | ⟨own, -⟩
    · exact same
    · exact absurd own differs
  -- the sender is never among the targets, so what it gets is the acknowledgement
  case replies =>
    intro w mem own
    rcases mem_deliverTo known mem with ⟨-, target, listed, peer, found, socket⟩ | ⟨-, _, _, ack⟩
    · obtain ⟨there, address⟩ := consistent.get?_eq_some_iff.mp found
      have one := there.1
      rw [← socket, own, registered.1] at one
      cases one
      subst address
      exact absurd listed
        (sender_not_mem_resolveTargets broker { env with sender := conn.address })
    · exact ⟨_, ack, rfl, rfl⟩
  case atMost =>
    intro other present differs
    rw [countP_deliverTo consistent known _ present differs]
    exact count_resolveTargets_le consistent _ _
  case acknowledged =>
    intro other present differs one _
    have addressed := (consistent.named other present).2.2
    have apart : other.address ≠ conn.address := by
      intro same
      exact differs (congrArg PeerConn.socket (consistent.distinct present registered same))
    have unicast : (isOne env.recipients && env.recipients ≠ .one broadcastName) = true := by
      rw [one]
      simpa [isOne] using addressed
    -- one recipient that is present: it is the only target, and it is found
    have targets : broker.resolveTargets { env with sender := conn.address } = [other.address] := by
      unfold resolveTargets
      rw [one]
      dsimp only
      rw [if_neg addressed, if_neg apart]
    have found := consistent.get?_eq_some_iff.mpr ⟨present, rfl⟩
    rw [unicast, targets]
    obtain ⟨broker', acks, -, writes, ⟨impossible, -⟩ | ⟨ack, rfl, socket, isAck⟩⟩ :=
      deliverTo_cons uuidv7 known true found []
    · cases impossible
    · exact ⟨ack, _, writes, rfl, rfl, socket, isAck⟩

/-- Routing an envelope of a registered peer routes it as the claim says. -/
theorem routed_route (uuidv7 : Nat → String) (consistent : broker.Consistent)
    (registered : broker.Registered conn)
    (env : Envelope) (router : Option RemoteRouter) :
    Routed broker conn env ((router.map RemoteRouter.tryRouteOutbound).getD false)
      (broker.route uuidv7 { env with sender := conn.address } router).2 := by
  have known := consistent.get?_eq_some_iff.mpr ⟨registered, rfl⟩
  have nothing (impossible : ∀ other, broker.Registered other →
        env.recipients = .one other.address →
        (router.map RemoteRouter.tryRouteOutbound).getD false = false → False) :
      Routed broker conn env ((router.map RemoteRouter.tryRouteOutbound).getD false) [] :=
    ⟨fun _ mem => absurd mem List.not_mem_nil, fun _ mem => absurd mem List.not_mem_nil,
      fun _ _ _ => Nat.zero_le _,
      fun other present _ one free => (impossible other present one free).elim⟩
  rw [route]
  split
  · next toBroker =>
    have unaddressed (other : PeerConn) (present : broker.Registered other)
        (one : env.recipients = .one other.address) : False := by
      rw [toBroker, Recipients.one.injEq] at one
      exact (consistent.named other present).2.1 one.symm
    rw [handleBrokerMessage]
    split
    · rw [known]
      -- the one write goes to the sender
      refine ⟨fun w mem differs => ?_, fun w mem _ => ?_, fun other _ differs => ?_,
        fun other present _ one => (unaddressed other present one).elim⟩
      · rw [List.mem_singleton.mp mem] at differs
        exact absurd rfl differs
      · rw [List.mem_singleton.mp mem]
        exact ⟨_, rfl, rfl, rfl⟩
      · simp [Ne.symm differs]
    · exact nothing fun other present one _ => unaddressed other present one
  · split
    · next claimed =>
      refine nothing fun other _ _ free => ?_
      rw [free, Bool.and_false] at claimed
      cases claimed
    · exact routed_deliverTo consistent registered env _

end Routing

/-! ## Every event -/

/-- A line of a registered connection which is an envelope. -/
def CarriesEnvelope (broker : Broker) (event : BrokerEvent) : Prop :=
  ∃ conn json env router, broker.Registered conn ∧ parse json = some env ∧
    event = .line conn.socket (some json) router

/-- A notice that the connection of an event has joined or left, under its own address. -/
def TellsOwnAddress (broker broker' : Broker) (event : BrokerEvent) (w : SocketWrite) : Prop :=
  ∃ conn : PeerConn, conn.socket = event.socket ∧
    ((broker'.Registered conn ∧ IsNotice w "peer_joined" conn.address) ∨
      (broker.Registered conn ∧ IsNotice w "peer_left" conn.address))

/-- What a registration writes to other sockets tells the new peer's own address. -/
theorem tellsOwnAddress_handleRegister {conn : PeerConn} {line : Option Json}
    (mem : w ∈ (broker.handleRegister uuidv7 conn line).2) (differs : w.socket ≠ conn.socket)
    (router : Option RemoteRouter) :
    TellsOwnAddress broker (broker.handleRegister uuidv7 conn line).1
      (.line conn.socket line router) w := by
  unfold handleRegister at mem ⊢
  split at mem
  · exact absurd mem List.not_mem_nil
  · next requested cwd request =>
    split at mem
    · exact absurd mem List.not_mem_nil
    · next name address chosen =>
      rcases List.mem_cons.mp mem with rfl | notice
      · exact absurd rfl differs
      · obtain ⟨-, assignable, -⟩ := uniqueIdentity_some chosen
        refine ⟨{ conn with cwd := cwd, name := name, address := address }, rfl,
          Or.inl ⟨?_, isNotice_of_mem notice⟩⟩
        exact registered_insert.mpr (Or.inl ⟨rfl, assignable.nonempty⟩)

/-- A write to another connection forwards an envelope or is a notice. -/
theorem carries_or_tells (consistent : broker.Consistent) {event : BrokerEvent}
    {writes : List SocketWrite} (handled : broker.handle uuidv7 event = some (broker', writes))
    (mem : w ∈ writes) (differs : w.socket ≠ event.socket) :
    broker.CarriesEnvelope event ∨ TellsOwnAddress broker broker' event w := by
  -- writes to another socket come from an envelope, a registration or a closing
  cases event with
  | connection socket =>
    rw [handle] at handled
    split at handled
    · cases handled
    · cases handled
      exact absurd mem List.not_mem_nil
  | line socket line router =>
    obtain ⟨conn, found, same⟩ := Option.map_eq_some_iff.mp handled
    have own := consistent.sockets socket conn found
    subst own
    rw [handleLine] at same
    split at same
    · split at same
      · next probed probe =>
        unfold tryObserverProbe at probe
        split at probe
        · cases probe
        · split at probe
          · cases probe
            cases same
            rw [List.mem_singleton.mp mem] at differs
            exact absurd rfl differs
          · cases probe
      · have tells (also : w ∈ (broker.handleRegister uuidv7 conn line).2) :=
          tellsOwnAddress_handleRegister also differs router
        rw [same] at tells
        exact Or.inr (tells mem)
    · next named =>
      split at same
      · cases same
        exact absurd mem List.not_mem_nil
      · next env parsed =>
        obtain ⟨json, rfl, parsed⟩ := Option.bind_eq_some_iff.mp parsed
        exact Or.inl ⟨conn, json, env, router, ⟨found, named⟩, parsed, rfl⟩
  | close socket =>
    obtain ⟨conn, found, same⟩ := Option.map_eq_some_iff.mp handled
    have own := consistent.sockets socket conn found
    subst own
    rw [onClose] at same
    split at same
    · cases same
      exact absurd mem List.not_mem_nil
    · next addressed =>
      cases same
      refine Or.inr ⟨conn, rfl, Or.inr ⟨⟨found, fun unnamed => addressed ?_⟩,
        isNotice_of_mem mem⟩⟩
      exact consistent.unnamed _ conn found unnamed

/-- What local peers can rely on. -/
structure LocalRouting (uuidv7 : Nat → String) (broker : Broker) : Prop where
  distinct : ∀ first second, broker.Registered first → broker.Registered second →
    first.address = second.address → first = second
  unreserved : ∀ conn, broker.Registered conn →
    conn.address ≠ brokerName ∧ conn.address ≠ broadcastName
  routed : ∀ conn json env router broker' writes, broker.Registered conn →
    parse json = some env →
    broker.handle uuidv7 (.line conn.socket (some json) router) = some (broker', writes) →
    broker.Routed conn env ((router.map RemoteRouter.tryRouteOutbound).getD false) writes
  /-- What another connection gets is an envelope that a peer has sent, or a notice. -/
  noticed : ∀ event broker' writes, broker.handle uuidv7 event = some (broker', writes) →
    ∀ w ∈ writes, w.socket ≠ event.socket →
      broker.CarriesEnvelope event ∨ TellsOwnAddress broker broker' event w

/-- In every reachable state the addresses of the registered connections are distinct and not
reserved, and every event has the writes that `LocalRouting` allows. -/
theorem local_routing (uuidv7 : Nat → String) {broker : Broker}
    (reached : (machine uuidv7).Reachable broker) : broker.LocalRouting uuidv7 := by
  have consistent := consistent_of_reachable reached
  refine ⟨fun first second one other same => consistent.distinct one other same,
    fun conn registered => (consistent.named conn registered).2, ?_,
    fun event broker' writes handled w mem differs =>
      carries_or_tells consistent handled mem differs⟩
  intro conn json env router broker' writes registered parsed handled
  obtain ⟨found, known, same⟩ := Option.map_eq_some_iff.mp handled
  rw [registered.1] at known
  cases known
  rw [handleLine, if_neg registered.2, Option.bind_some, parsed] at same
  dsimp only at same
  have routed := routed_route uuidv7 consistent registered env router
  rw [same] at routed
  exact routed

/-! ## Two peers -/

/-- Identifiers that count up. -/
def countedId (n : Nat) : String :=
  let digits := Nat.toDigits 10 n
  "00000000-0000-7000-8000-" ++ String.ofList (List.replicate (12 - digits.length) '0' ++ digits)

def registerLine (name cwd : String) : Json :=
  .object [("type", .string "register"), ("name", .string name), ("cwd", .string cwd)]

def envelopeLine (recipients : Json) : Json :=
  .object [("from", .string "broker"), ("to", recipients),
    ("id", .string "01890000-0000-7000-8000-000000000001"), ("re", .null), ("body", .null)]

/-- Two connections register, the second under the name of the first. -/
def twoPeers : List BrokerEvent :=
  [.connection 1, .line 1 (some (registerLine "pi" "/a")) none,
    .connection 2, .line 2 (some (registerLine "pi" "/a")) none]

def alice : PeerConn := { name := "pi".toList, cwd := "/a", address := "/a@pi", socket := 1 }

def bob : PeerConn := { name := "pi#2".toList, cwd := "/a", address := "/a@pi#2", socket := 2 }

/-- A reachable broker with two registered peers, at which the theorem speaks. -/
theorem local_routing_two_peers : ∃ broker : Broker, (machine countedId).Reachable broker ∧
    broker.Registered alice ∧ broker.Registered bob ∧ broker.LocalRouting countedId := by
  have ran : ((machine countedId).exec initial twoPeers).any (fun broker =>
      decide (broker.Registered alice ∧ broker.Registered bob)) = true := by decide +kernel
  obtain ⟨broker, executed, facts⟩ := (Option.any_eq_true _ _).mp ran
  obtain ⟨one, other⟩ := of_decide_eq_true facts
  have reached : (machine countedId).Reachable broker := reachable_of_exec rfl executed
  exact ⟨broker, reached, one, other, local_routing countedId reached⟩

/-- A list that names a peer twice brings the envelope to it twice. And a peer that registers makes
the broker send an envelope under its own name to a peer that was there before. -/
theorem exists_repeated_delivery_and_notice :
    (∃ broker broker' : Broker, ∃ writes, (machine countedId).Reachable broker ∧
      broker.Registered alice ∧ broker.Registered bob ∧
      broker.handle countedId (.line alice.socket
        (some (envelopeLine (.array [.string bob.address, .string bob.address]))) none) =
          some (broker', writes) ∧
      writes.countP (fun w => w.socket = bob.socket) = 2) ∧
    ∃ broker broker' : Broker, ∃ writes, (machine countedId).Reachable broker ∧
      broker.Registered alice ∧
      broker.handle countedId (.line bob.socket (some (registerLine "pi" "/a")) none) =
        some (broker', writes) ∧
      ∃ w ∈ writes, w.socket = alice.socket ∧
        ∃ env, w.content = .envelope env ∧ env.sender = brokerName := by
  constructor
  · have ran : ((machine countedId).exec initial twoPeers).any (fun broker =>
        decide (broker.Registered alice ∧ broker.Registered bob) &&
        (broker.handle countedId (.line alice.socket
          (some (envelopeLine (.array [.string bob.address, .string bob.address]))) none)).any
            fun result => result.2.countP (fun w => w.socket = bob.socket) = 2) = true := by
      decide +kernel
    obtain ⟨broker, executed, facts⟩ := (Option.any_eq_true _ _).mp ran
    obtain ⟨registered, twice⟩ := Bool.and_eq_true_iff.mp facts
    obtain ⟨one, other⟩ := of_decide_eq_true registered
    obtain ⟨⟨broker', writes⟩, handled, counted⟩ := (Option.any_eq_true _ _).mp twice
    exact ⟨broker, broker', writes, reachable_of_exec rfl executed, one, other, handled,
      of_decide_eq_true counted⟩
  · have ran : ((machine countedId).exec initial (twoPeers.take 3)).any (fun broker =>
        decide (broker.Registered alice) &&
        (broker.handle countedId (.line bob.socket (some (registerLine "pi" "/a")) none)).any
          fun result => result.2.any fun w =>
            decide (w.socket = alice.socket) && match w.content with
              | .envelope env => env.sender = brokerName
              | .registerAck _ _ => false) = true := by
      decide +kernel
    obtain ⟨broker, executed, facts⟩ := (Option.any_eq_true _ _).mp ran
    obtain ⟨registered, tells⟩ := Bool.and_eq_true_iff.mp facts
    obtain ⟨⟨broker', writes⟩, handled, some⟩ := (Option.any_eq_true _ _).mp tells
    obtain ⟨w, mem, both⟩ := List.any_eq_true.mp some
    obtain ⟨own, content⟩ := Bool.and_eq_true_iff.mp both
    refine ⟨broker, broker', writes, reachable_of_exec rfl executed,
      of_decide_eq_true registered, handled, w, mem, of_decide_eq_true own, ?_⟩
    split at content
    · next env same => exact ⟨env, same, of_decide_eq_true content⟩
    · cases content

end OutpostPi.Session.Broker
