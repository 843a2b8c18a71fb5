import OutpostPi.Lib.Machine
import OutpostPi.Session.BrokerRemote

/-!
# The broker and the relay on one connection

The control frames of a `BrokerRemote` are served by the relay in order. The broker subscribes to
one sibling per frame, and each such frame replaces what the key watched before. So the relay
watches the sibling that was newly asked for last, and no other (`watches_iff`): the siblings are
all covered just when each of them is that one (`siblings_covered_iff`).
-/

set_option autoImplicit false

namespace OutpostPi.Session

open OutpostPi.Lib OutpostPi.Relay

/-! ## Subscriptions of a broker -/

/-- The peers that a frame subscribes to. -/
def Sent.subscription? : Sent → Option (List PeerId)
  | .control (.subscribeRooms peers) => some peers
  | _ => none

namespace BrokerRemote

variable {broker : BrokerRemote} {pcPubkey : PeerId}

/-- A step that sends no subscription and changes neither the siblings nor what is subscribed. -/
structure Quiet (broker : BrokerRemote) (result : BrokerRemote × List Sent) : Prop where
  labels : result.1.siblingByLabel = broker.siblingByLabel
  pubkeys : result.1.siblingByPubkey = broker.siblingByPubkey
  self : result.1.selfPcLabel = broker.selfPcLabel ∧ result.1.selfPcPubkey = broker.selfPcPubkey
  detached : result.1.detached = broker.detached
  subscribed : result.1.subscribedRooms = broker.subscribedRooms
  silent : result.2.filterMap Sent.subscription? = []

theorem Quiet.refl (broker : BrokerRemote) : Quiet broker (broker, []) :=
  ⟨rfl, rfl, ⟨rfl, rfl⟩, rfl, rfl, rfl⟩

theorem quiet_requestRooms : Quiet broker (broker.requestRooms pcPubkey) := by
  rw [requestRooms]
  split
  · exact .refl broker
  · exact ⟨rfl, rfl, ⟨rfl, rfl⟩, rfl, rfl, rfl⟩

theorem subscribeToRooms_of_mem (mem : pcPubkey ∈ broker.subscribedRooms) :
    broker.subscribeToRooms pcPubkey = (broker, []) :=
  if_pos (Or.inr mem)

/-- Picking a room of a sibling that is subscribed sends no subscription. -/
theorem quiet_pickRoom (mem : pcPubkey ∈ broker.subscribedRooms) :
    Quiet broker ((broker.pickRoom pcPubkey).1, (broker.pickRoom pcPubkey).2.1) := by
  rw [pickRoom]
  split
  · exact .refl broker
  · rw [subscribeToRooms_of_mem mem]
    exact quiet_requestRooms

/-- The envelopes of a greeting are no subscriptions. -/
theorem filterMap_sendControlEnvelopeToRoom {envelope : Sent}
    (isEnvelope : envelope.subscription? = none) :
    (broker.sendControlEnvelopeToRoom envelope).filterMap Sent.subscription? = [] := by
  rw [sendControlEnvelopeToRoom]
  split
  · rfl
  · exact List.filterMap_cons_none isEnvelope

/-- The bootstrap of a sibling that is subscribed. -/
theorem quiet_bootstrapSibling (mem : pcPubkey ∈ broker.subscribedRooms) :
    Quiet broker (broker.bootstrapSibling pcPubkey) := by
  have picked := quiet_pickRoom mem
  rw [bootstrapSibling, subscribeToRooms_of_mem mem]
  refine { picked with silent := ?_ }
  dsimp only
  rw [List.nil_append, List.filterMap_append, picked.silent, List.nil_append]
  split
  · rfl
  · rw [List.filterMap_append, filterMap_sendControlEnvelopeToRoom rfl,
      filterMap_sendControlEnvelopeToRoom rfl]
    rfl

/-- Subscribing first makes no difference to the rest of the bootstrap. -/
theorem bootstrapSibling_eq (broker : BrokerRemote) (pcPubkey : PeerId)
    (mem : pcPubkey ∈ (broker.subscribeToRooms pcPubkey).1.subscribedRooms) :
    broker.bootstrapSibling pcPubkey =
      (((broker.subscribeToRooms pcPubkey).1.bootstrapSibling pcPubkey).1,
        (broker.subscribeToRooms pcPubkey).2 ++
          ((broker.subscribeToRooms pcPubkey).1.bootstrapSibling pcPubkey).2) := by
  rw [bootstrapSibling, bootstrapSibling, subscribeToRooms_of_mem mem]
  dsimp only
  rw [List.nil_append, List.append_assoc]

/-- A frame of the relay is answered with envelopes at most. -/
theorem quiet_receive (frame : RelayRoomFrame) : Quiet broker (broker.receive frame) := by
  cases frame with
  | rooms frame =>
    rw [receive, handleRooms]
    split
    · exact .refl broker
    · refine ⟨rfl, rfl, ⟨rfl, rfl⟩, rfl, rfl, ?_⟩
      dsimp only
      rw [List.filterMap_map]
      exact List.filterMap_eq_nil_iff.mpr fun _ _ => rfl
  | roomAnnounced peer roomId startedAt =>
    rw [receive, handleRoomAnnounced]
    split
    · exact .refl broker
    · exact ⟨rfl, rfl, ⟨rfl, rfl⟩, rfl, rfl, rfl⟩
  | roomEnded peer roomId =>
    rw [receive, handleRoomEnded]
    split
    · exact .refl broker
    · dsimp only
      split <;> exact ⟨rfl, rfl, ⟨rfl, rfl⟩, rfl, rfl, rfl⟩

/-- Forgetting siblings drops them from those subscribed. -/
theorem subscribedRooms_foldl_forgetSibling (gone : List PeerId) (broker : BrokerRemote) :
    (gone.foldl forgetSibling broker).subscribedRooms =
      broker.subscribedRooms.filter (· ∉ gone) := by
  induction gone generalizing broker with
  | nil => simp
  | cons pcPubkey rest ih =>
    rw [List.foldl_cons, ih, forgetSibling, List.filter_filter]
    apply List.filter_congr
    intro peer _
    simp [not_or, Bool.and_comm]

/-- It leaves the siblings, and who this Pi is. -/
theorem kept_foldl_forgetSibling (gone : List PeerId) (broker : BrokerRemote) :
    (gone.foldl forgetSibling broker).siblingByLabel = broker.siblingByLabel ∧
      (gone.foldl forgetSibling broker).siblingByPubkey = broker.siblingByPubkey ∧
      (gone.foldl forgetSibling broker).selfPcLabel = broker.selfPcLabel ∧
      (gone.foldl forgetSibling broker).selfPcPubkey = broker.selfPcPubkey ∧
      (gone.foldl forgetSibling broker).detached = broker.detached := by
  induction gone generalizing broker with
  | nil => exact ⟨rfl, rfl, rfl, rfl, rfl⟩
  | cons pcPubkey rest ih => exact ih _

end BrokerRemote

/-! ## Membership -/

/-- The siblings of the last publication, those of them that have a label of their own, those that
have been asked for and have stayed since, and the one with a canonical key that was newly asked
for last. -/
structure Membership where
  present : List PeerId
  labelled : List PeerId
  asked : List PeerId
  newest : Option PeerId
  deriving DecidableEq

namespace Membership

/-- Ask for a sibling, unless it is one of those asked for. -/
def ask (canonical : PeerId → Bool) (membership : Membership) (pcPubkey : PeerId) : Membership :=
  if pcPubkey ∈ membership.asked then membership
  else
    { membership with
      asked := pcPubkey :: membership.asked
      newest := if canonical pcPubkey then some pcPubkey else membership.newest }

theorem present_ask (canonical : PeerId → Bool) (membership : Membership) (pcPubkey : PeerId) :
    (membership.ask canonical pcPubkey).present = membership.present := by
  rw [ask]
  split <;> rfl

/-- Ask for every sibling that has a label. -/
def askAll (canonical : PeerId → Bool) (membership : Membership) : Membership :=
  membership.labelled.foldl (ask canonical) membership

/-- The siblings that a publication names, and those among them that have a label of their own. The
order of their rooms does not matter. -/
def named (selfPcLabel : String) (selfPcPubkey : PeerId) (siblings : List SiblingInfo) :
    List PeerId × List PeerId :=
  let members := siblings.foldl BrokerRemote.addSibling
    (.initial (fun _ _ => .eq) selfPcLabel selfPcPubkey)
  (members.siblingByPubkey.keys, members.siblingByLabel.values)

/-- A publication: those that it does not name are gone, and the others are asked for. -/
def publish (canonical : PeerId → Bool) (selfPcLabel : String) (selfPcPubkey : PeerId)
    (membership : Membership) (siblings : List SiblingInfo) : Membership :=
  let (present, labelled) := named selfPcLabel selfPcPubkey siblings
  askAll canonical
    { membership with
      present := present
      labelled := labelled
      asked := membership.asked.filter (· ∈ present) }

end Membership

/-! ## Runs -/

/-- What a broker does: membership publications, the periodic bootstrap, and the room frames that
the relay sends in between. -/
inductive BrokerCall
  | bootstrap
  | setSiblings (next : List SiblingInfo)
  | receive (frame : RelayRoomFrame)

def BrokerRemote.call (broker : BrokerRemote) : BrokerCall → BrokerRemote × List Sent
  | .bootstrap => broker.bootstrapWithSiblings
  | .setSiblings next => broker.setSiblings next
  | .receive frame => broker.receive frame

/-- The broker and the room subscriptions of the relay. -/
structure Subscribing where
  broker : BrokerRemote
  relay : RoomManager

section Runs

variable (canonical : PeerId → Bool)

/-- The relay serves the subscriptions among some frames. The others do not touch them. -/
def serveSubscriptions (peerId : PeerId) (relay : RoomManager) (sent : List Sent) : RoomManager :=
  (sent.filterMap Sent.subscription?).foldl
    ((ConnectionActor.new peerId 0).subscribeRooms canonical) relay

/-- One call, whose frames are then served. -/
def Subscribing.call (state : Subscribing) (call : BrokerCall) : Subscribing :=
  let (broker, sent) := state.broker.call call
  ⟨broker, serveSubscriptions canonical state.broker.selfPcPubkey state.relay sent⟩

/-- A new broker on a connection whose key watches nothing, and some calls of it. -/
def subscribingRun (localeCompare : String → String → Ordering) (selfPcLabel : String)
    (selfPcPubkey : PeerId) (relay : RoomManager) (siblings : List SiblingInfo)
    (calls : List BrokerCall) : Subscribing :=
  let (broker, sent) := BrokerRemote.new localeCompare selfPcLabel selfPcPubkey siblings
  let idle : RoomManager := ⟨relay.subscriptions.removeAll selfPcPubkey⟩
  calls.foldl (Subscribing.call canonical)
    ⟨broker, serveSubscriptions canonical selfPcPubkey idle sent⟩

/-- The membership after a call. -/
def Membership.after (selfPcLabel : String) (selfPcPubkey : PeerId) (membership : Membership) :
    BrokerCall → Membership
  | .bootstrap => membership.askAll canonical
  | .setSiblings next => membership.publish canonical selfPcLabel selfPcPubkey next
  | .receive _ => membership

/-- The membership after the first publication and those among the calls. -/
def membershipOf (selfPcLabel : String) (selfPcPubkey : PeerId) (siblings : List SiblingInfo)
    (calls : List BrokerCall) : Membership :=
  calls.foldl (Membership.after canonical selfPcLabel selfPcPubkey)
    (Membership.publish canonical selfPcLabel selfPcPubkey ⟨[], [], [], none⟩ siblings)

end Runs

/-! ## What the relay watches -/

/-- The relay watches the newest sibling for the key, and no other. -/
structure Tracks (selfPcLabel : String) (selfPcPubkey : PeerId) (state : Subscribing)
    (membership : Membership) : Prop where
  self : state.broker.selfPcLabel = selfPcLabel ∧ state.broker.selfPcPubkey = selfPcPubkey
  attached : state.broker.detached = false
  present : state.broker.siblingByPubkey.keys = membership.present
  labelled : state.broker.siblingByLabel.values = membership.labelled
  asked : state.broker.subscribedRooms = membership.asked
  asked_present : ∀ peer ∈ membership.asked, peer ∈ membership.present
  labelled_present : ∀ peer ∈ membership.labelled, peer ∈ membership.present
  watches : ∀ peer, selfPcPubkey ∈ state.relay.subscriptions.subscribersOf peer ↔
    membership.newest = some peer

theorem serveSubscriptions_append (canonical : PeerId → Bool) (peerId : PeerId)
    (relay : RoomManager) (sent more : List Sent) :
    serveSubscriptions canonical peerId relay (sent ++ more) =
      serveSubscriptions canonical peerId (serveSubscriptions canonical peerId relay sent) more := by
  rw [serveSubscriptions, List.filterMap_append, List.foldl_append]
  rfl

/-- A subscription to one sibling replaces what is watched. -/
theorem watches_subscribeRooms {canonical : PeerId → Bool} {relay : RoomManager} {peerId : PeerId}
    {newest : Option PeerId}
    (watches : ∀ peer, peerId ∈ relay.subscriptions.subscribersOf peer ↔ newest = some peer)
    (pcPubkey peer : PeerId) :
    peerId ∈ ((ConnectionActor.new peerId 0).subscribeRooms canonical relay
        [pcPubkey]).subscriptions.subscribersOf peer ↔
      (if canonical pcPubkey then some pcPubkey else newest) = some peer := by
  rw [ConnectionActor.subscribeRooms, boundedPeerList_singleton]
  by_cases isCanonical : canonical pcPubkey = true
  · rw [if_pos isCanonical, if_pos isCanonical]
    dsimp only
    rw [SubscriptionIndex.mem_replace, List.mem_singleton, Option.some_inj]
    have own : (ConnectionActor.new peerId 0).peerId = peerId := rfl
    simp [own, eq_comm]
  · rw [if_neg isCanonical, if_neg isCanonical]
    exact watches peer

/-- Those who have a label are named. -/
theorem labelled_addSibling {broker : BrokerRemote}
    (labelled : ∀ peer ∈ broker.siblingByLabel.values, peer ∈ broker.siblingByPubkey.keys)
    (s : SiblingInfo) : ∀ peer ∈ (broker.addSibling s).siblingByLabel.values,
      peer ∈ (broker.addSibling s).siblingByPubkey.keys := by
  rw [BrokerRemote.addSibling]
  split
  · exact labelled
  split
  · exact labelled
  split
  · exact labelled
  intro peer mem
  rw [OrderedMap.mem_keys_set]
  exact (OrderedMap.mem_values_set mem).imp_left (labelled peer)

/-- Only the siblings of a broker change when one is added. -/
theorem addSibling_eq (broker : BrokerRemote) (s : SiblingInfo) :
    broker.addSibling s =
      { broker with
        siblingByLabel := (broker.addSibling s).siblingByLabel
        siblingByPubkey := (broker.addSibling s).siblingByPubkey } := by
  rw [BrokerRemote.addSibling]
  split
  · rfl
  split
  · rfl
  split <;> rfl

/-- Brokers of one Pi that have the same siblings add the same ones. -/
theorem siblings_addSibling {broker other : BrokerRemote}
    (sameLabel : broker.selfPcLabel = other.selfPcLabel)
    (samePubkey : broker.selfPcPubkey = other.selfPcPubkey)
    (labels : broker.siblingByLabel = other.siblingByLabel)
    (pubkeys : broker.siblingByPubkey = other.siblingByPubkey) (s : SiblingInfo) :
    (broker.addSibling s).siblingByLabel = (other.addSibling s).siblingByLabel ∧
      (broker.addSibling s).siblingByPubkey = (other.addSibling s).siblingByPubkey := by
  rw [BrokerRemote.addSibling, BrokerRemote.addSibling, sameLabel, samePubkey, labels, pubkeys]
  split
  · exact ⟨labels, pubkeys⟩
  split
  · exact ⟨labels, pubkeys⟩
  split
  · exact ⟨labels, pubkeys⟩
  · exact ⟨rfl, rfl⟩

/-- The siblings that are added do not depend on anything else that the broker knows. -/
theorem foldl_addSibling (siblings : List SiblingInfo) (broker other : BrokerRemote)
    (sameLabel : broker.selfPcLabel = other.selfPcLabel)
    (samePubkey : broker.selfPcPubkey = other.selfPcPubkey)
    (labels : broker.siblingByLabel = other.siblingByLabel)
    (pubkeys : broker.siblingByPubkey = other.siblingByPubkey) :
    siblings.foldl BrokerRemote.addSibling broker =
      { broker with
        siblingByLabel := (siblings.foldl BrokerRemote.addSibling other).siblingByLabel
        siblingByPubkey := (siblings.foldl BrokerRemote.addSibling other).siblingByPubkey } := by
  induction siblings generalizing broker other with
  | nil =>
    rw [List.foldl_nil, List.foldl_nil, ← labels, ← pubkeys]
  | cons s rest ih =>
    obtain ⟨addedLabels, addedPubkeys⟩ :=
      siblings_addSibling sameLabel samePubkey labels pubkeys s
    have kept := addSibling_eq broker s
    have keptOther := addSibling_eq other s
    have label : (broker.addSibling s).selfPcLabel = (other.addSibling s).selfPcLabel := by
      rw [kept, keptOther]
      exact sameLabel
    have pubkey : (broker.addSibling s).selfPcPubkey = (other.addSibling s).selfPcPubkey := by
      rw [kept, keptOther]
      exact samePubkey
    rw [List.foldl_cons, List.foldl_cons, ih _ _ label pubkey addedLabels addedPubkeys, kept]

namespace Tracks

section Steps

variable (canonical : PeerId → Bool) {selfPcLabel : String} {selfPcPubkey : PeerId}
  {state : Subscribing} {membership : Membership}

/-- A quiet step keeps what is watched. -/
theorem quiet (tracks : Tracks selfPcLabel selfPcPubkey state membership)
    {result : BrokerRemote × List Sent} (silent : BrokerRemote.Quiet state.broker result) :
    Tracks selfPcLabel selfPcPubkey
      ⟨result.1, serveSubscriptions canonical selfPcPubkey state.relay result.2⟩ membership := by
  refine ⟨?_, silent.detached.trans tracks.attached, ?_, ?_,
    silent.subscribed.trans tracks.asked, tracks.asked_present, tracks.labelled_present, ?_⟩
  · exact ⟨silent.self.1.trans tracks.self.1, silent.self.2.trans tracks.self.2⟩
  · rw [silent.pubkeys]
    exact tracks.present
  · rw [silent.labels]
    exact tracks.labelled
  · rw [serveSubscriptions, silent.silent]
    exact tracks.watches

/-- The bootstrap of one sibling asks for it. -/
theorem bootstrapSibling (tracks : Tracks selfPcLabel selfPcPubkey state membership)
    {pcPubkey : PeerId} (present : pcPubkey ∈ membership.present) :
    Tracks selfPcLabel selfPcPubkey
      ⟨(state.broker.bootstrapSibling pcPubkey).1,
        serveSubscriptions canonical selfPcPubkey state.relay
          (state.broker.bootstrapSibling pcPubkey).2⟩
      (membership.ask canonical pcPubkey) := by
  by_cases known : pcPubkey ∈ membership.asked
  · rw [Membership.ask, if_pos known]
    exact tracks.quiet canonical (BrokerRemote.quiet_bootstrapSibling (tracks.asked ▸ known))
  · have subscribing : state.broker.subscribeToRooms pcPubkey =
        ({ state.broker with subscribedRooms := pcPubkey :: state.broker.subscribedRooms },
          [.control (.subscribeRooms [pcPubkey])]) := by
      apply if_neg
      rintro (detached | subscribed)
      · rw [tracks.attached] at detached
        cases detached
      · exact known (tracks.asked ▸ subscribed)
    have mem : pcPubkey ∈ (state.broker.subscribeToRooms pcPubkey).1.subscribedRooms := by
      rw [subscribing]
      exact List.mem_cons_self
    rw [BrokerRemote.bootstrapSibling_eq _ _ mem, Membership.ask, if_neg known]
    dsimp only
    rw [serveSubscriptions_append]
    -- the subscription is the first frame, and the rest of the bootstrap is quiet
    have first : Tracks selfPcLabel selfPcPubkey
        ⟨(state.broker.subscribeToRooms pcPubkey).1,
          serveSubscriptions canonical selfPcPubkey state.relay
            (state.broker.subscribeToRooms pcPubkey).2⟩
        { membership with
          asked := pcPubkey :: membership.asked
          newest := if canonical pcPubkey then some pcPubkey else membership.newest } := ?_
    · exact first.quiet canonical (BrokerRemote.quiet_bootstrapSibling mem)
    rw [subscribing]
    refine ⟨tracks.self, tracks.attached, tracks.present, tracks.labelled,
      congrArg (pcPubkey :: ·) tracks.asked, ?_, tracks.labelled_present,
      watches_subscribeRooms tracks.watches pcPubkey⟩
    intro peer asked
    rcases List.mem_cons.mp asked with rfl | before
    · exact present
    · exact tracks.asked_present peer before

/-- The bootstrap of some siblings asks for each of them. -/
theorem bootstrapAll (siblings : List PeerId)
    (tracks : Tracks selfPcLabel selfPcPubkey state membership)
    (present : ∀ peer ∈ siblings, peer ∈ membership.present) :
    Tracks selfPcLabel selfPcPubkey
      ⟨(state.broker.bootstrapAll siblings).1,
        serveSubscriptions canonical selfPcPubkey state.relay
          (state.broker.bootstrapAll siblings).2⟩
      (siblings.foldl (Membership.ask canonical) membership) := by
  induction siblings generalizing state membership with
  | nil => exact tracks
  | cons pcPubkey rest ih =>
    have first := tracks.bootstrapSibling canonical (present pcPubkey List.mem_cons_self)
    have later : ∀ peer ∈ rest, peer ∈ (membership.ask canonical pcPubkey).present := by
      intro peer mem
      rw [Membership.present_ask]
      exact present peer (List.mem_cons_of_mem _ mem)
    rw [List.foldl_cons, BrokerRemote.bootstrapAll]
    dsimp only
    rw [serveSubscriptions_append]
    exact ih first later

/-- The bootstrap of every sibling. -/
theorem bootstrapWithSiblings (tracks : Tracks selfPcLabel selfPcPubkey state membership) :
    Tracks selfPcLabel selfPcPubkey
      ⟨state.broker.bootstrapWithSiblings.1,
        serveSubscriptions canonical selfPcPubkey state.relay state.broker.bootstrapWithSiblings.2⟩
      (membership.askAll canonical) := by
  rw [BrokerRemote.bootstrapWithSiblings, tracks.labelled]
  exact tracks.bootstrapAll canonical _ tracks.labelled_present

/-- Adding siblings keeps those with a label named. -/
theorem labelled_foldl_addSibling (siblings : List SiblingInfo) {broker : BrokerRemote}
    (labelled : ∀ peer ∈ broker.siblingByLabel.values, peer ∈ broker.siblingByPubkey.keys) :
    ∀ peer ∈ (siblings.foldl BrokerRemote.addSibling broker).siblingByLabel.values,
      peer ∈ (siblings.foldl BrokerRemote.addSibling broker).siblingByPubkey.keys := by
  induction siblings generalizing broker with
  | nil => exact labelled
  | cons s rest ih => exact ih (labelled_addSibling labelled s)

theorem labelled_named (selfPcLabel : String) (selfPcPubkey : PeerId)
    (siblings : List SiblingInfo) :
    ∀ peer ∈ (Membership.named selfPcLabel selfPcPubkey siblings).2,
      peer ∈ (Membership.named selfPcLabel selfPcPubkey siblings).1 :=
  labelled_foldl_addSibling siblings fun _ mem => absurd mem List.not_mem_nil

/-- A publication: those that it does not name are gone, and then the bootstrap. -/
theorem setSiblings (tracks : Tracks selfPcLabel selfPcPubkey state membership)
    (next : List SiblingInfo) :
    Tracks selfPcLabel selfPcPubkey
      ⟨(state.broker.setSiblings next).1,
        serveSubscriptions canonical selfPcPubkey state.relay (state.broker.setSiblings next).2⟩
      (membership.publish canonical selfPcLabel selfPcPubkey next) := by
  rw [BrokerRemote.setSiblings, if_neg (by rw [tracks.attached]; exact Bool.false_ne_true)]
  have replaced := foldl_addSibling next
    { state.broker with siblingByLabel := .empty, siblingByPubkey := .empty }
    (.initial (fun _ _ => .eq) selfPcLabel selfPcPubkey) tracks.self.1 tracks.self.2 rfl rfl
  dsimp only
  rw [replaced]
  generalize members : next.foldl BrokerRemote.addSibling
    (.initial (fun _ _ => .eq) selfPcLabel selfPcPubkey) = named
  have named_eq : Membership.named selfPcLabel selfPcPubkey next =
      (named.siblingByPubkey.keys, named.siblingByLabel.values) := by
    rw [Membership.named, members]
  have labelled : ∀ peer ∈ named.siblingByLabel.values, peer ∈ named.siblingByPubkey.keys := by
    have all := labelled_named selfPcLabel selfPcPubkey next
    rwa [named_eq] at all
  rw [Membership.publish, named_eq]
  dsimp only
  set gone := state.broker.siblingByPubkey.keys.filter
    fun pubkey => pubkey ∉ named.siblingByPubkey.keys with gone_eq
  set replacement : BrokerRemote :=
    { state.broker with
      siblingByLabel := named.siblingByLabel
      siblingByPubkey := named.siblingByPubkey } with replacement_eq
  have kept := BrokerRemote.kept_foldl_forgetSibling gone replacement
  have subscribed := BrokerRemote.subscribedRooms_foldl_forgetSibling gone replacement
  -- those asked for were siblings, so only those that are named now have stayed
  have stayed : state.broker.subscribedRooms.filter (· ∉ gone) =
      membership.asked.filter (· ∈ named.siblingByPubkey.keys) := by
    rw [tracks.asked]
    apply List.filter_congr
    intro peer asked
    rw [gone_eq]
    simp [tracks.present, tracks.asked_present peer asked]
  have cleaned : Tracks selfPcLabel selfPcPubkey
      ⟨gone.foldl BrokerRemote.forgetSibling replacement, state.relay⟩
      { membership with
        present := named.siblingByPubkey.keys
        labelled := named.siblingByLabel.values
        asked := membership.asked.filter (· ∈ named.siblingByPubkey.keys) } := by
    refine ⟨?_, kept.2.2.2.2.trans tracks.attached, congrArg OrderedMap.keys kept.2.1,
      congrArg OrderedMap.values kept.1, subscribed.trans stayed, ?_, labelled, tracks.watches⟩
    · exact ⟨kept.2.2.1.trans tracks.self.1, kept.2.2.2.1.trans tracks.self.2⟩
    · intro peer mem
      exact of_decide_eq_true (List.mem_filter.mp mem).2
  exact cleaned.bootstrapWithSiblings canonical

/-- One call of the broker. -/
theorem call (tracks : Tracks selfPcLabel selfPcPubkey state membership) (call : BrokerCall) :
    Tracks selfPcLabel selfPcPubkey (state.call canonical call)
      (membership.after canonical selfPcLabel selfPcPubkey call) := by
  rw [Subscribing.call, tracks.self.2]
  cases call with
  | bootstrap => exact tracks.bootstrapWithSiblings canonical
  | setSiblings next => exact tracks.setSiblings canonical next
  | receive frame => exact tracks.quiet canonical (BrokerRemote.quiet_receive frame)

/-- Some calls of the broker. -/
theorem calls (calls : List BrokerCall)
    (tracks : Tracks selfPcLabel selfPcPubkey state membership) :
    Tracks selfPcLabel selfPcPubkey (calls.foldl (Subscribing.call canonical) state)
      (calls.foldl (Membership.after canonical selfPcLabel selfPcPubkey) membership) := by
  induction calls generalizing state membership with
  | nil => exact tracks
  | cons call rest ih => exact ih (tracks.call canonical call)

end Steps

/-- A broker that is just created has asked for the siblings that it was given. -/
theorem start (canonical : PeerId → Bool) (localeCompare : String → String → Ordering)
    (selfPcLabel : String) (selfPcPubkey : PeerId) (relay : RoomManager)
    (siblings : List SiblingInfo) :
    Tracks selfPcLabel selfPcPubkey
      (subscribingRun canonical localeCompare selfPcLabel selfPcPubkey relay siblings [])
      (membershipOf canonical selfPcLabel selfPcPubkey siblings []) := by
  have added := foldl_addSibling siblings (.initial localeCompare selfPcLabel selfPcPubkey)
    (.initial (fun _ _ => .eq) selfPcLabel selfPcPubkey) rfl rfl rfl rfl
  have labelled := labelled_named selfPcLabel selfPcPubkey siblings
  rw [Membership.named] at labelled
  have idle : Tracks selfPcLabel selfPcPubkey
      ⟨siblings.foldl BrokerRemote.addSibling (.initial localeCompare selfPcLabel selfPcPubkey),
        ⟨relay.subscriptions.removeAll selfPcPubkey⟩⟩
      { present := (Membership.named selfPcLabel selfPcPubkey siblings).1
        labelled := (Membership.named selfPcLabel selfPcPubkey siblings).2
        asked := []
        newest := none } := by
    rw [added]
    refine ⟨⟨rfl, rfl⟩, rfl, rfl, rfl, rfl, ?_, labelled, ?_⟩
    · exact fun _ mem => absurd mem List.not_mem_nil
    · intro peer
      dsimp only
      rw [SubscriptionIndex.mem_removeAll]
      simp
  exact idle.bootstrapWithSiblings canonical

end Tracks

/-- Of two siblings the relay watches the second only. -/
theorem exists_sibling_not_watched :
    let first := "AAAAAAAAAAAAAAAAAAAAAAAAAAAAAAAAAAAAAAAAAAA="
    let second := "AQAAAAAAAAAAAAAAAAAAAAAAAAAAAAAAAAAAAAAAAAA="
    let own := "7P///////////////////////////////////////38="
    let run := subscribingRun (isCanonicalPeerId fun _ => true) compare "here" own .new
      [⟨"desk", first⟩, ⟨"laptop", second⟩] []
    first ∈ run.broker.siblingByPubkey.keys ∧
      own ∉ run.relay.subscriptions.subscribersOf first := by
  decide +kernel

/-- The relay watches all siblings of a broker just when each of them is the one that was newly
asked for last. -/
theorem siblings_covered_iff (canonical : PeerId → Bool)
    (localeCompare : String → String → Ordering) (selfPcLabel : String) (selfPcPubkey : PeerId)
    (relay : RoomManager) (siblings : List SiblingInfo) (calls : List BrokerCall) :
    let run := subscribingRun canonical localeCompare selfPcLabel selfPcPubkey relay siblings calls
    let membership := membershipOf canonical selfPcLabel selfPcPubkey siblings calls
    (∀ peer ∈ run.broker.siblingByPubkey.keys,
        selfPcPubkey ∈ run.relay.subscriptions.subscribersOf peer) ↔
      ∀ peer ∈ membership.present, membership.newest = some peer := by
  intro run membership
  have tracks : Tracks selfPcLabel selfPcPubkey run membership :=
    (Tracks.start canonical localeCompare selfPcLabel selfPcPubkey relay siblings).calls canonical
      calls
  rw [tracks.present]
  exact forall₂_congr fun peer _ => tracks.watches peer

end OutpostPi.Session
