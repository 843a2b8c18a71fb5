import OutpostPi.Lib.LastEntry
import OutpostPi.Session.Broker
import OutpostPi.Session.BrokerRemote

/-!
# Addresses across computers

A sibling writes its own label in front of the address of the local sender. The receiver admits an
envelope whose label is the one that it knows for the authenticated key, and delivers it with the
address as it stands. A reply to that address finds the sibling by the label.

`round_trips_iff` says when this leads back: the two tables of siblings are inverse to each other
exactly when the last sibling listed with a label is the last listed with its key, and then an
address leads back exactly when something follows the label.
-/

set_option autoImplicit false

namespace OutpostPi.Session.BrokerRemote

open OutpostPi.Lib OutpostPi.Relay

/-! ## Outbound -/

/-- An envelope on its way to a room of a sibling. -/
structure Forwarded where
  toPc : PeerId
  toRoom : RoomId
  envelope : Envelope

/-- What comes of an envelope for another PC. -/
structure Outbound where
  remote : BrokerRemote
  sent : List Sent
  forwarded : Option Forwarded
  claimed : Bool

/-- The sibling that an address leads to, absent for the own label and an unknown one. -/
def siblingOf (remote : BrokerRemote) (address : String) : Option PeerId :=
  match parseAddress address with
  | none => none
  | some (pcLabel, _) =>
    if pcLabel = remote.selfPcLabel then none else remote.siblingByLabel.get? pcLabel

/-- Send an envelope to the room that is picked of a sibling, if one is known. -/
def sendControlEnvelope (remote : BrokerRemote) (toPc : PeerId)
    (envelope : PeerId → RoomId → Sent) : BrokerRemote × List Sent :=
  let (picked, request, room) := remote.pickRoom toPc
  match room with
  | none => (picked, request)
  | some room => (picked, request ++ picked.sendControlEnvelopeToRoom (envelope toPc room))

/-- Take an envelope for a sibling, and send it where a room of the sibling is known. The roster of
the sibling is asked for unless it is known. -/
def tryRouteOutbound (remote : BrokerRemote) (rosterKnown : Bool) (env : Envelope) : Outbound :=
  let pass : Outbound := { remote := remote, sent := [], forwarded := none, claimed := false }
  if remote.detached then pass
  else
    match env.recipients with
    | .many _ => pass
    | .one address =>
      match remote.siblingOf address with
      | none => pass
      | some siblingPk =>
        let rewritten : Envelope := { env with sender := remote.selfPcLabel ++ ":" ++ env.sender }
        let (picked, request, room) := remote.pickRoom siblingPk
        let (asked, more) :=
          if rosterKnown then (picked, [])
          else picked.sendControlEnvelope siblingPk Sent.peersRequest
        { remote := asked
          sent := request ++ more
          forwarded := room.map fun room =>
            { toPc := siblingPk, toRoom := room, envelope := rewritten }
          claimed := true }

/-! ## Inbound -/

/-- The origin that the relay gives for its own reports. -/
def relayName : String := "_relay"

/-- The envelope is a report of the relay that a message was not delivered. -/
def isRelayTransportError (env : Envelope) : Bool :=
  env.sender = relayName && Broker.isOne env.recipients &&
    env.body.hasString "type" "transport_error"

/-- The local address in a recipient: without the own label, and absent for another label. -/
def localRecipient (selfPcLabel address : String) : Option String :=
  match parseAddress address with
  | none => some address
  | some (pcLabel, peerName) => if pcLabel = selfPcLabel then some peerName else none

/-- What an inbound envelope causes: a write to a local peer, frames to siblings. -/
structure Inbound where
  remote : BrokerRemote
  written : Option SocketWrite
  sent : List Sent
  forwarded : Option Forwarded

/-- A report of the relay goes to the peer that it names, with or without the own label. -/
def propagateTransportError (remote : BrokerRemote) (broker : Broker) (env : Envelope) :
    Option SocketWrite :=
  match env.recipients with
  | .many _ => none
  | .one address =>
    match parseAddress address with
    | none => broker.injectFromRemote env
    | some (pcLabel, peerName) =>
      if pcLabel = remote.selfPcLabel then
        broker.injectFromRemote { env with recipients := .one peerName }
      else broker.injectFromRemote env

/-- The status of the acknowledgement of an envelope. -/
def ackStatus (written : Option SocketWrite) : String :=
  if written.isSome then "received" else "denied"

/-- Handle an envelope that the relay forwards. `ackId` is the identifier of the acknowledgement. -/
def handleIncoming (remote : BrokerRemote) (broker : Broker) (env : Envelope) (fromPc : PeerId)
    (toRoom : RoomId) (ackId : String) : Inbound :=
  let drop : Inbound := { remote := remote, written := none, sent := [], forwarded := none }
  if remote.detached then drop
  else if fromPc = relayName then
    if isRelayTransportError env then
      { drop with written := remote.propagateTransportError broker env }
    else drop
  else
    match remote.siblingByPubkey.get? fromPc with
    | none => drop
    | some claimedLabel =>
      if env.sender.toList.takeWhile (· ≠ ':') ≠ claimedLabel.toList then drop
      -- the roster of the sibling is kept elsewhere
      else if env.body.hasString "type" "peers_update" then drop
      else if env.body.hasString "type" "peers_request" then
        let (asked, sent) := remote.sendControlEnvelope fromPc Sent.peersUpdate
        { drop with remote := asked, sent := sent }
      else
        match env.recipients with
        | .many _ => drop
        | .one address =>
          match localRecipient remote.selfPcLabel address with
          | none => drop
          | some target =>
            let written := broker.injectFromRemote { env with recipients := .one target }
            let ackBody : Json := .object [("type", .string "ack"),
              ("status", .string (ackStatus written)), ("target", .string target)]
            let ackEnv : Envelope :=
              { sender := remote.selfPcLabel ++ ":" ++ brokerName
                recipients := .one env.sender
                id := ackId
                re := some env.id
                body := ackBody }
            { drop with
              written := written
              forwarded :=
                if env.body.hasString "type" "ack" then none
                else some { toPc := fromPc, toRoom := toRoom, envelope := ackEnv } }

/-! ## The tables of siblings -/

/-- A sibling that the tables take. -/
def Accepts (remote : BrokerRemote) (s : SiblingInfo) : Prop :=
  ¬(s.pcLabel = "" ∨ s.pcPubkey = "") ∧ s.pcLabel ≠ remote.selfPcLabel ∧
    s.pcPubkey ≠ remote.selfPcPubkey

instance (remote : BrokerRemote) (s : SiblingInfo) : Decidable (remote.Accepts s) :=
  inferInstanceAs (Decidable (_ ∧ _))

/-- The siblings that the tables take in. -/
def accepted (remote : BrokerRemote) (siblings : List SiblingInfo) : List SiblingInfo :=
  siblings.filter fun s => remote.Accepts s

/-- The tables are those of a list of siblings. -/
structure Knows (remote : BrokerRemote) (siblings : List SiblingInfo) : Prop where
  byLabel : remote.siblingByLabel =
    .indexed SiblingInfo.pcLabel SiblingInfo.pcPubkey (remote.accepted siblings)
  byPubkey : remote.siblingByPubkey =
    .indexed SiblingInfo.pcPubkey SiblingInfo.pcLabel (remote.accepted siblings)

/-- Both remotes belong to one Pi and list the same siblings. -/
structure SameSiblings (remote remote' : BrokerRemote) : Prop where
  labels : remote'.siblingByLabel = remote.siblingByLabel
  pubkeys : remote'.siblingByPubkey = remote.siblingByPubkey
  selfLabel : remote'.selfPcLabel = remote.selfPcLabel
  selfPubkey : remote'.selfPcPubkey = remote.selfPcPubkey

theorem SameSiblings.refl (remote : BrokerRemote) : SameSiblings remote remote :=
  ⟨rfl, rfl, rfl, rfl⟩

theorem SameSiblings.trans {remote remote' remote'' : BrokerRemote}
    (first : SameSiblings remote remote') (second : SameSiblings remote' remote'') :
    SameSiblings remote remote'' :=
  ⟨second.labels.trans first.labels, second.pubkeys.trans first.pubkeys,
    second.selfLabel.trans first.selfLabel, second.selfPubkey.trans first.selfPubkey⟩

theorem Knows.congr {remote remote' : BrokerRemote} {siblings : List SiblingInfo}
    (knows : remote.Knows siblings) (same : SameSiblings remote remote') :
    remote'.Knows siblings := by
  have accepted : remote'.accepted siblings = remote.accepted siblings := by
    refine List.filter_congr fun s _ => decide_eq_decide.mpr ?_
    rw [Accepts, Accepts, same.selfLabel, same.selfPubkey]
  constructor
  · rw [same.labels, accepted]
    exact knows.byLabel
  · rw [same.pubkeys, accepted]
    exact knows.byPubkey

theorem sameSiblings_subscribeToRooms (remote : BrokerRemote) (pcPubkey : PeerId) :
    SameSiblings remote (remote.subscribeToRooms pcPubkey).1 := by
  rw [subscribeToRooms]
  split
  · exact .refl remote
  · exact ⟨rfl, rfl, rfl, rfl⟩

theorem sameSiblings_requestRooms (remote : BrokerRemote) (pcPubkey : PeerId) :
    SameSiblings remote (remote.requestRooms pcPubkey).1 := by
  rw [requestRooms]
  split
  · exact .refl remote
  · exact ⟨rfl, rfl, rfl, rfl⟩

theorem sameSiblings_pickRoom (remote : BrokerRemote) (pcPubkey : PeerId) :
    SameSiblings remote (remote.pickRoom pcPubkey).1 := by
  rw [pickRoom]
  split
  · exact .refl remote
  · exact (sameSiblings_subscribeToRooms remote pcPubkey).trans (sameSiblings_requestRooms _ _)

theorem sameSiblings_bootstrapAll (pcPubkeys : List PeerId) (remote : BrokerRemote) :
    SameSiblings remote (remote.bootstrapAll pcPubkeys).1 := by
  induction pcPubkeys generalizing remote with
  | nil => exact .refl remote
  | cons pcPubkey rest ih =>
    have subscribed := sameSiblings_subscribeToRooms remote pcPubkey
    exact (subscribed.trans (sameSiblings_pickRoom _ pcPubkey)).trans (ih _)

/-- Adding siblings one after the other fills both tables with those that are accepted. -/
theorem foldl_addSibling_eq (siblings : List SiblingInfo) (remote : BrokerRemote) :
    siblings.foldl addSibling remote =
      { remote with
        siblingByLabel := (remote.accepted siblings).foldl
          (fun m s => m.set s.pcLabel s.pcPubkey) remote.siblingByLabel
        siblingByPubkey := (remote.accepted siblings).foldl
          (fun m s => m.set s.pcPubkey s.pcLabel) remote.siblingByPubkey } := by
  induction siblings generalizing remote with
  | nil => rfl
  | cons s rest ih =>
    by_cases accepts : remote.Accepts s
    · have added : remote.addSibling s =
          { remote with
            siblingByLabel := remote.siblingByLabel.set s.pcLabel s.pcPubkey
            siblingByPubkey := remote.siblingByPubkey.set s.pcPubkey s.pcLabel } := by
        obtain ⟨nonempty, otherLabel, otherPubkey⟩ := accepts
        rw [addSibling, if_neg nonempty, if_neg otherLabel, if_neg otherPubkey]
      have first : remote.accepted (s :: rest) = s :: remote.accepted rest :=
        List.filter_cons_of_pos (by simpa using accepts)
      rw [List.foldl_cons, ih, first, List.foldl_cons, List.foldl_cons, added]
      rfl
    · have skipped : remote.addSibling s = remote := by
        rw [addSibling]
        split
        · rfl
        split
        · rfl
        split
        · rfl
        next nonempty otherLabel otherPubkey =>
        exact absurd ⟨nonempty, otherLabel, otherPubkey⟩ accepts
      have same : remote.accepted (s :: rest) = remote.accepted rest :=
        List.filter_cons_of_neg (by simpa using accepts)
      rw [List.foldl_cons, skipped, ih, same]

/-- A new remote knows its siblings. -/
theorem knows_new (localeCompare : String → String → Ordering) (selfPcLabel : String)
    (selfPcPubkey : PeerId) (siblings : List SiblingInfo) :
    (new localeCompare selfPcLabel selfPcPubkey siblings).1.Knows siblings := by
  rw [new, bootstrapWithSiblings]
  refine Knows.congr ?_ (sameSiblings_bootstrapAll _ _)
  rw [foldl_addSibling_eq]
  exact ⟨rfl, rfl⟩

/-! ## The way back -/

/-- The last sibling listed with a label is the last one listed with its key, and the other way
round. -/
def LastAgree (remote : BrokerRemote) (siblings : List SiblingInfo) : Prop :=
  ∀ s, IsLast SiblingInfo.pcLabel (remote.accepted siblings) s ↔
    IsLast SiblingInfo.pcPubkey (remote.accepted siblings) s

/-- Siblings without a common label or key. -/
theorem lastAgree_of_distinct {remote : BrokerRemote} {siblings : List SiblingInfo}
    (labels : ∀ s ∈ siblings, ∀ t ∈ siblings, s.pcLabel = t.pcLabel → s = t)
    (pubkeys : ∀ s ∈ siblings, ∀ t ∈ siblings, s.pcPubkey = t.pcPubkey → s = t) :
    remote.LastAgree siblings := by
  intro s
  constructor
  · intro isLast
    refine isLast_of_unique isLast.mem fun t mem same => ?_
    exact pubkeys t (List.mem_of_mem_filter mem) s (List.mem_of_mem_filter isLast.mem) same
  · intro isLast
    refine isLast_of_unique isLast.mem fun t mem same => ?_
    exact labels t (List.mem_of_mem_filter mem) s (List.mem_of_mem_filter isLast.mem) same

/-- Each of the two tables is the inverse of the other. -/
def MutuallyInverse (remote : BrokerRemote) : Prop :=
  ∀ pcLabel pcPubkey, remote.siblingByLabel.get? pcLabel = some pcPubkey ↔
    remote.siblingByPubkey.get? pcPubkey = some pcLabel

theorem mutuallyInverse_iff {remote : BrokerRemote} {siblings : List SiblingInfo}
    (knows : remote.Knows siblings) : remote.MutuallyInverse ↔ remote.LastAgree siblings := by
  rw [MutuallyInverse, knows.byLabel, knows.byPubkey]
  refine inverse_iff fun first _ second _ sameLabel samePubkey => ?_
  cases first
  cases second
  cases sameLabel
  cases samePubkey
  rfl

/-- Something follows the first `:` of an address. -/
def HasLocalPart (address : String) : Prop := (address.toList.dropWhile (· ≠ ':')).drop 1 ≠ []

/-- A reply to an address goes to the sibling, and there to the address behind the label. -/
structure Returns (remote : BrokerRemote) (fromPc : PeerId) (pcLabel localAddress : String)
    (rosterKnown : Bool) (reply : Envelope) : Prop where
  claimed : (remote.tryRouteOutbound rosterKnown reply).claimed = true
  sibling : ∀ forwarded, (remote.tryRouteOutbound rosterKnown reply).forwarded = some forwarded →
    forwarded.toPc = fromPc ∧ ∃ recipient, forwarded.envelope.recipients = .one recipient ∧
      localRecipient pcLabel recipient = some localAddress
  /-- The reply is sent as soon as a room of the sibling is known. -/
  sent : ∀ room, (remote.pickRoom fromPc).2.2 = some room →
    ∃ forwarded, (remote.tryRouteOutbound rosterKnown reply).forwarded = some forwarded ∧
      forwarded.toRoom = room

/-- The address that was delivered names the sibling that sent, and a reply goes back to it. -/
structure RoundTrips (remote : BrokerRemote) (fromPc : PeerId) (address : String) : Prop where
  inverse : remote.MutuallyInverse
  names : remote.siblingOf address = some fromPc
  returns : ∃ pcLabel localAddress, remote.siblingByPubkey.get? fromPc = some pcLabel ∧
    address = pcLabel ++ ":" ++ localAddress ∧
      ∀ rosterKnown reply, reply.recipients = .one address →
        Returns remote fromPc pcLabel localAddress rosterKnown reply

variable {remote : BrokerRemote} {siblings : List SiblingInfo}

variable {fromPc : PeerId}

/-- What is written to a local peer for a sibling carries the label of the sibling. -/
theorem handleIncoming_written {broker : Broker} {env : Envelope} {toRoom : RoomId}
    {ackId : String} {w : SocketWrite} (sibling : fromPc ≠ relayName)
    (written : (remote.handleIncoming broker env fromPc toRoom ackId).written = some w) :
    remote.detached = false ∧
      (∃ pcLabel, remote.siblingByPubkey.get? fromPc = some pcLabel ∧
        env.sender.toList.takeWhile (· ≠ ':') = pcLabel.toList) ∧
      ∃ target, w.content = .envelope { env with recipients := .one target } := by
  unfold handleIncoming at written
  split at written
  · cases written
  next attached =>
  split at written
  · cases written
  next pcLabel known =>
  split at written
  · cases written
  next same =>
  split at written
  · cases written
  split at written
  · cases written
  split at written
  · cases written
  split at written
  · cases written
  next target _ =>
  refine ⟨Bool.eq_false_iff.mpr attached, ⟨pcLabel, known, not_not.mp same⟩, target, ?_⟩
  change broker.injectFromRemote { env with recipients := .one target } = some w at written
  unfold Broker.injectFromRemote at written
  split at written
  · cases written
  · split at written
    · cases written
    · obtain ⟨peer, -, rfl⟩ := Option.map_eq_some_iff.mp written
      rfl

variable {pcLabel : String}

/-- A sibling is known by a label that is neither empty nor the own one. -/
theorem label_of_known (knows : remote.Knows siblings) {pcPubkey : PeerId}
    (known : remote.siblingByPubkey.get? pcPubkey = some pcLabel) :
    pcLabel ≠ "" ∧ pcLabel ≠ remote.selfPcLabel := by
  rw [knows.byPubkey, get?_indexed] at known
  obtain ⟨s, isLast, -, rfl⟩ := known
  have accepts : remote.Accepts s := by simpa using (List.mem_filter.mp isLast.mem).2
  exact ⟨fun empty => accepts.1 (Or.inl empty), accepts.2.1⟩

/-- The outbound side sends an envelope for a sibling to that sibling. -/
theorem returns_of_siblingOf (attached : remote.detached = false) {localAddress : String}
    (parsed : parseAddress (pcLabel ++ ":" ++ localAddress) = some (pcLabel, localAddress))
    (names : remote.siblingOf (pcLabel ++ ":" ++ localAddress) = some fromPc) (rosterKnown : Bool)
    {reply : Envelope} (addressed : reply.recipients = .one (pcLabel ++ ":" ++ localAddress)) :
    Returns remote fromPc pcLabel localAddress rosterKnown reply := by
  have routed : remote.tryRouteOutbound rosterKnown reply =
      { remote := (if rosterKnown then ((remote.pickRoom fromPc).1, [])
          else (remote.pickRoom fromPc).1.sendControlEnvelope fromPc Sent.peersRequest).1
        sent := (remote.pickRoom fromPc).2.1 ++
          (if rosterKnown then ((remote.pickRoom fromPc).1, [])
          else (remote.pickRoom fromPc).1.sendControlEnvelope fromPc Sent.peersRequest).2
        forwarded := (remote.pickRoom fromPc).2.2.map fun room =>
          { toPc := fromPc, toRoom := room
            envelope := { reply with sender := remote.selfPcLabel ++ ":" ++ reply.sender } }
        claimed := true } := by
    unfold tryRouteOutbound
    rw [attached, addressed]
    dsimp only
    rw [names]
    rfl
  constructor
  · rw [routed]
  · intro forwarded sent
    rw [routed] at sent
    obtain ⟨room, -, rfl⟩ := Option.map_eq_some_iff.mp sent
    refine ⟨rfl, _, addressed, ?_⟩
    rw [localRecipient, parsed]
    exact if_pos rfl
  · intro room picked
    rw [routed]
    dsimp only
    rw [picked]
    exact ⟨_, rfl, rfl⟩

/-- An admitted address leads back exactly when something follows the label. -/
theorem roundTrips_iff (knows : remote.Knows siblings) (attached : remote.detached = false)
    {address : String} (known : remote.siblingByPubkey.get? fromPc = some pcLabel)
    (labelled : address.toList.takeWhile (· ≠ ':') = pcLabel.toList) :
    RoundTrips remote fromPc address ↔ remote.LastAgree siblings ∧ HasLocalPart address := by
  constructor
  · rintro ⟨inverse, names, -⟩
    refine ⟨(mutuallyInverse_iff knows).mp inverse, fun nothing => ?_⟩
    -- with nothing behind the label the address does not parse
    have unparsed : parseAddress address = none := by
      rw [parseAddress]
      exact if_pos (Or.inr nothing)
    rw [siblingOf, unparsed] at names
    cases names
  · rintro ⟨agree, localPart⟩
    have inverse := (mutuallyInverse_iff knows).mpr agree
    obtain ⟨nonempty, notSelf⟩ := label_of_known knows known
    have labelNonempty : pcLabel.toList ≠ [] := by simpa using nonempty
    obtain ⟨localAddress, parsed⟩ :
        ∃ localAddress, parseAddress address = some (pcLabel, localAddress) := by
      refine ⟨String.ofList ((address.toList.dropWhile (· ≠ ':')).drop 1), ?_⟩
      rw [parseAddress, labelled, String.ofList_toList]
      exact if_neg (not_or.mpr ⟨labelNonempty, localPart⟩)
    have names : remote.siblingOf address = some fromPc := by
      rw [siblingOf, parsed]
      dsimp only
      rw [if_neg notSelf]
      exact (inverse pcLabel fromPc).mpr known
    obtain ⟨composed, -⟩ := parseAddress_eq_some.mp parsed
    subst composed
    exact ⟨inverse, names, pcLabel, localAddress, known, rfl,
      fun rosterKnown reply addressed =>
        returns_of_siblingOf attached parsed names rosterKnown addressed⟩

/-- The tables of siblings are inverse to each other if and only if the last sibling with a label
is the last one with its key. An envelope of a sibling reaches a local peer under the address that
the sibling wrote, and this address names the sibling and leads a reply back if and only if, with
tables that are inverse, something follows the label. -/
theorem round_trips_iff (knows : remote.Knows siblings) :
    (remote.MutuallyInverse ↔ remote.LastAgree siblings) ∧
      ∀ (broker : Broker) (env : Envelope) (fromPc : PeerId) (toRoom : RoomId) (ackId : String)
        (w : SocketWrite), fromPc ≠ relayName →
        (remote.handleIncoming broker env fromPc toRoom ackId).written = some w →
        ∃ delivered, w.content = .envelope delivered ∧
          (RoundTrips remote fromPc delivered.sender ↔
            remote.LastAgree siblings ∧ HasLocalPart env.sender) := by
  refine ⟨mutuallyInverse_iff knows, ?_⟩
  intro broker env fromPc toRoom ackId w sibling written
  obtain ⟨attached, ⟨pcLabel, known, labelled⟩, target, content⟩ :=
    handleIncoming_written sibling written
  exact ⟨_, content, roundTrips_iff knows attached known labelled⟩

/-! ## Two siblings -/

/-- The key of the Pi itself. -/
def deskKey : PeerId := "AAAAAAAAAAAAAAAAAAAAAAAAAAAAAAAAAAAAAAAAAAA="

/-- The key of a sibling. -/
def firstKey : PeerId := "AQEBAQEBAQEBAQEBAQEBAQEBAQEBAQEBAQEBAQEBAQE="

/-- The key of another sibling. -/
def secondKey : PeerId := "AgICAgICAgICAgICAgICAgICAgICAgICAgICAgICAgI="

/-- A broker with one peer that has the label of a sibling for its name. -/
def localBroker : Broker :=
  let laptop : PeerConn := { name := "laptop".toList, cwd := "", address := "laptop", socket := 1 }
  { conns := (∅ : Map Nat PeerConn).insert 1 laptop
    peers := OrderedMap.empty.set "laptop" laptop
    ids := 0 }

/-- An envelope from another PC. -/
def inbound (sender : String) : Envelope where
  sender := sender
  recipients := .one "desk:laptop"
  id := "01890000-0000-7000-8000-000000000001"
  re := none
  body := .null

theorem round_trips_iff_two_siblings :
    let remote := (new compare "desk" deskKey [⟨"laptop", firstKey⟩, ⟨"tower", secondKey⟩]).1
    ∃ w delivered, (remote.handleIncoming localBroker (inbound "laptop:/a@pi") firstKey "main"
        "ack").written = some w ∧
      w.content = .envelope delivered ∧ RoundTrips remote firstKey delivered.sender := by
  intro remote
  have knows : remote.Knows [⟨"laptop", firstKey⟩, ⟨"tower", secondKey⟩] := knows_new _ _ _ _
  have reaches : (remote.handleIncoming localBroker (inbound "laptop:/a@pi") firstKey "main"
      "ack").written.isSome := by decide +kernel
  obtain ⟨w, written⟩ := Option.isSome_iff_exists.mp reaches
  obtain ⟨delivered, content, roundTrips⟩ :=
    (round_trips_iff knows).2 _ _ _ _ _ w (by decide) written
  have agree : remote.LastAgree [⟨"laptop", firstKey⟩, ⟨"tower", secondKey⟩] :=
    lastAgree_of_distinct (by decide) (by decide)
  exact ⟨w, delivered, written, content, roundTrips.mpr ⟨agree, by rw [HasLocalPart]; decide⟩⟩

/-- Of two siblings with one label the first is known by it, but the label leads to the second. And
a sibling reaches a local peer under its bare label, which is the address of a local peer and leads
to no sibling. -/
theorem exists_foreign_address :
    (∃ w delivered,
      let remote := (new compare "desk" deskKey [⟨"laptop", firstKey⟩, ⟨"laptop", secondKey⟩]).1
      ¬remote.MutuallyInverse ∧
      (remote.handleIncoming localBroker (inbound "laptop:/a@pi") firstKey "main" "ack").written =
        some w ∧
      w.content = .envelope delivered ∧
      remote.siblingOf delivered.sender = some secondKey) ∧
    ∃ w delivered,
      let remote := (new compare "desk" deskKey [⟨"laptop", firstKey⟩, ⟨"tower", secondKey⟩]).1
      (remote.handleIncoming localBroker (inbound "laptop") firstKey "main" "ack").written =
        some w ∧
      w.content = .envelope delivered ∧
      remote.siblingOf delivered.sender = none ∧
      delivered.sender ∈ localBroker.peers.keys := by
  constructor
  · refine ⟨⟨1, .envelope { inbound "laptop:/a@pi" with recipients := .one "laptop" }⟩, _, ?_, rfl,
      rfl, rfl⟩
    intro inverse
    have one := (inverse "laptop" firstKey).mpr rfl
    exact absurd one (by decide +kernel)
  · exact ⟨⟨1, .envelope { inbound "laptop" with recipients := .one "laptop" }⟩, _, rfl, rfl, rfl,
      by decide⟩

end OutpostPi.Session.BrokerRemote
