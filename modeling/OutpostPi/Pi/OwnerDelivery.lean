import Mathlib.Data.List.Pairwise
import OutpostPi.Lib.Tickets
import OutpostPi.Pi.OwnerChannel

/-!
# At most one delivery

An acceptance by `compareAndAdvanceRecvSeq` is a ticket to dispatch one frame, and a reservation
is a ticket to seal one. The high-waters see to it that no ticket is issued twice under one
channel key, and a channel uses the ticket in its hands at most once, so no frame is dispatched
twice and no sequence is sealed twice, whatever crashes in between.

`OwnerInvariant` is kept by every step, and `owner_channel_at_most_once` reads the three
guarantees off it.
-/

set_option autoImplicit false

namespace OutpostPi.Pi

open OutpostPi.Lib

/-! ## Tickets in hand -/

namespace Channel

/-- The acceptance that the channel is about to use. -/
def acceptance (ch : Channel) : Option (String × Nat) :=
  match ch.drain with
  | .compared box (.ok .accepted) => some (ch.channelKey, box.seq)
  | _ => none

/-- The reservation that the channel is about to use. -/
def reserved (ch : Channel) : Option (String × Nat) :=
  match ch.reservation with
  | some (.ok (some seq)) => some (ch.channelKey, seq)
  | _ => none

/-- The sealed message that the drain has opened. -/
def opened (ch : Channel) : Option SealedBox :=
  match ch.drain with
  | .comparing box => some box
  | .compared box _ => some box
  | _ => none

/-- The opened message is under the key of the channel and, like the waiting frames, was sealed
by somebody. -/
structure Genuine (sealed : List SealedBox) (ch : Channel) : Prop where
  key : ∀ box, ch.opened = some box → box.channelKey = ch.channelKey ∧
    box.direction = .appToPi ∧ box ∈ sealed
  queue : ∀ frame ∈ ch.inboundQueue, ∀ box, frame.ciphertext = .sealed box → box ∈ sealed

/-- A channel that came from another without new tickets. -/
structure Follows (sealed : List SealedBox) (ch ch' : Channel) : Prop where
  acceptance : ∀ ticket, ch'.acceptance = some ticket → ch.acceptance = some ticket
  reserved : ∀ ticket, ch'.reserved = some ticket → ch.reserved = some ticket
  genuine : ch.Genuine sealed → ch'.Genuine sealed

variable {sealed : List SealedBox} {ch : Channel} {decodes : String → Bool}

/-- What `detach`, `disconnect` and `openFailed` leave alone. -/
structure SameWork (ch ch' : Channel) : Prop where
  drain : ch'.drain = ch.drain
  reservation : ch'.reservation = ch.reservation
  channelKey : ch'.channelKey = ch.channelKey
  queue : ∀ frame ∈ ch'.inboundQueue, frame ∈ ch.inboundQueue

/-- Detaching leaves the work in hand. -/
theorem sameWork_detach (ch : Channel) : SameWork ch ch.detach := by
  rw [detach]
  split
  · exact ⟨rfl, rfl, rfl, fun _ mem => mem⟩
  · exact ⟨rfl, rfl, rfl, fun _ mem => by cases mem⟩

/-- Disconnecting leaves the work in hand. -/
theorem sameWork_disconnect (ch : Channel) : SameWork ch ch.disconnect := by
  rw [disconnect]
  split
  · exact ⟨rfl, rfl, rfl, fun _ mem => mem⟩
  · obtain ⟨drain, reservation, channelKey, queue⟩ :=
      sameWork_detach { ch with disconnectNotified := true }
    exact ⟨drain, reservation, channelKey, queue⟩

/-- A frame that does not open leaves the work in hand. -/
theorem sameWork_openFailed (ch : Channel) : SameWork ch ch.openFailed := by
  simp only [openFailed]
  split
  · obtain ⟨drain, reservation, channelKey, queue⟩ := sameWork_disconnect
      { ch with consecutiveOpenFailures := ch.consecutiveOpenFailures + 1 }
    exact ⟨drain, reservation, channelKey, queue⟩
  · exact ⟨rfl, rfl, rfl, fun _ mem => mem⟩

/-- A channel with the same work in hand follows. -/
theorem SameWork.follows {ch' : Channel} (same : SameWork ch ch') : Follows sealed ch ch' := by
  constructor
  · intro ticket has
    rwa [acceptance, same.drain, same.channelKey] at has
  · intro ticket has
    rwa [reserved, same.reservation, same.channelKey] at has
  · intro genuine
    constructor
    · intro box has
      rw [opened, same.drain] at has
      rw [same.channelKey]
      exact genuine.key box has
    · intro frame mem
      exact genuine.queue frame (same.queue frame mem)

/-- Two steps that follow one another follow as one. -/
theorem Follows.trans {ch' ch'' : Channel} (first : Follows sealed ch ch')
    (second : Follows sealed ch' ch'') : Follows sealed ch ch'' where
  acceptance ticket has := first.acceptance ticket (second.acceptance ticket has)
  reserved ticket has := first.reserved ticket (second.reserved ticket has)
  genuine ok := second.genuine (first.genuine ok)

/-- A channel whose drain holds nothing follows. -/
theorem follows_next (drain : Drain) (empty : ∀ ch : Channel,
    ({ ch with drain := drain }).acceptance = none ∧ ({ ch with drain := drain }).opened = none) :
    Follows sealed ch { ch with drain := drain } := by
  constructor
  · intro ticket has
    rw [(empty ch).1] at has
    cases has
  · intro ticket has
    exact has
  · intro genuine
    constructor
    · intro box has
      rw [(empty ch).2] at has
      cases has
    · exact genuine.queue

variable {box : SealedBox}

/-- A frame opens only from a box of this key, this direction and a later sequence number. -/
theorem openFrame_some {key : String} {frame : Frame} {last : Nat}
    (opens : openFrame key frame last = some box) : frame.ciphertext = .sealed box ∧
      box.channelKey = key ∧ box.direction = .appToPi ∧ last < box.seq := by
  rw [openFrame] at opens
  split at opens
  · cases opens
  · split at opens
    · cases opens
    · next newer =>
      split at opens
      · cases opens
      · next found cipher =>
        obtain ⟨header, rfl⟩ := Machine.of_guard opens
        exact ⟨cipher, header.1, header.2.1, by omega⟩

/-- Opening a frame of which the relay has the ciphertext yields a genuine message. -/
theorem follows_openAndRoute {frame : Frame}
    (has : ∀ box, frame.ciphertext = .sealed box → box ∈ sealed) :
    Follows sealed ch (ch.openAndRoute decodes frame) := by
  have failed : Follows sealed ch { ch.openFailed with drain := .next } :=
    (sameWork_openFailed ch).follows.trans (follows_next .next fun _ => ⟨rfl, rfl⟩)
  rw [openAndRoute]
  split
  · exact follows_next .next fun _ => ⟨rfl, rfl⟩
  · split
    · exact failed
    · next box opens =>
      obtain ⟨cipher, key, direction, -⟩ := openFrame_some opens
      split
      · constructor
        · intro ticket impossible
          cases impossible
        · intro ticket holds
          exact holds
        · intro genuine
          constructor
          · intro box' is
            cases is
            exact ⟨key, direction, has box cipher⟩
          · exact genuine.queue
      · exact failed

/-- A shorter queue is as genuine as before. -/
theorem follows_drainInbound (genuine : ch.Genuine sealed) :
    Follows sealed ch (ch.drainInbound decodes) := by
  rw [drainInbound]
  split
  · exact follows_next .idle fun _ => ⟨rfl, rfl⟩
  · split
    · exact follows_next .idle fun _ => ⟨rfl, rfl⟩
    · next frame queue waiting =>
      have shorter : Follows sealed ch { ch with inboundQueue := queue } := by
        refine SameWork.follows ⟨rfl, rfl, rfl, ?_⟩
        intro other mem
        rw [waiting]
        exact List.mem_cons_of_mem frame mem
      refine shorter.trans (follows_openAndRoute ?_)
      exact genuine.queue frame (by simp [waiting])

/-- A received frame brings no new tickets. -/
theorem follows_onIngress {frame : Frame} (genuine : ch.Genuine sealed)
    (has : ∀ box, frame.ciphertext = .sealed box → box ∈ sealed) :
    Follows sealed ch (ch.onIngress decodes frame) := by
  have same : Follows sealed ch ch :=
    SameWork.follows ⟨rfl, rfl, rfl, fun _ mem => mem⟩
  have queued : Follows sealed ch { ch with inboundQueue := ch.inboundQueue ++ [frame] } := by
    constructor
    · intro ticket holds
      exact holds
    · intro ticket holds
      exact holds
    · intro _
      constructor
      · exact genuine.key
      · intro other mem
        rcases List.mem_append.mp mem with before | new
        · exact genuine.queue other before
        · rw [List.mem_singleton.mp new]
          exact has
  rw [onIngress]
  split
  · exact same
  · split
    · exact same
    · split
      · exact same
      · rw [ensureInboundDrain]
        split
        · split
          · exact queued
          · exact queued.trans (follows_drainInbound (queued.genuine genuine))
        · exact queued

/-- A message to send brings no new tickets. -/
theorem follows_send {json : String} : Follows sealed ch (ch.send json) := by
  rw [send]
  split
  · exact SameWork.follows ⟨rfl, rfl, rfl, fun _ mem => mem⟩
  · split
    · exact (sameWork_disconnect ch).follows
    · exact SameWork.follows ⟨rfl, rfl, rfl, fun _ mem => mem⟩

/-- Resuming gives the acceptance up, and dispatches only by one. -/
theorem follows_resume {outcome : Except PeerError RecvSeqAdvanceResult} :
    Follows sealed ch (ch.resume box outcome).1 := by
  have idle : Follows sealed ch { ch with drain := .next } :=
    follows_next .next fun _ => ⟨rfl, rfl⟩
  simp only [resume]
  split
  · exact idle
  · split
    · exact idle.trans (sameWork_disconnect _).follows
    · exact idle.trans (sameWork_openFailed _).follows
    · exact idle.trans (sameWork_disconnect _).follows
    · refine idle.trans (SameWork.follows ⟨rfl, rfl, rfl, fun _ mem => mem⟩)

/-- A frame is dispatched only after its sequence number was accepted. -/
theorem resume_dispatches {outcome : Except PeerError RecvSeqAdvanceResult}
    (dispatches : (ch.resume box outcome).2 = true) :
    outcome = .ok .accepted ∧ (ch.resume box outcome).1.acceptance = none := by
  simp only [resume] at dispatches ⊢
  split at dispatches
  · cases dispatches
  · next attached =>
    split at dispatches
    · cases dispatches
    · cases dispatches
    · cases dispatches
    · rw [if_neg attached]
      exact ⟨rfl, rfl⟩

/-- Finishing a message gives the reservation up. -/
theorem follows_transmit {outcome : Except PeerError (Option Nat)} {seals : Bool} :
    Follows sealed ch (ch.transmit outcome seals).1 := by
  have rest : Follows sealed ch { ch with outbound := ch.outbound.tail, reservation := none } := by
    constructor
    · intro ticket holds
      exact holds
    · intro ticket impossible
      cases impossible
    · intro genuine
      exact ⟨genuine.key, genuine.queue⟩
  simp only [transmit]
  split
  · split
    · exact rest
    · exact rest.trans (sameWork_disconnect _).follows
  · split
    · exact rest
    · exact rest.trans (sameWork_disconnect _).follows

/-- A new channel holds nothing. -/
theorem createPeerChannel_empty {process : Nat} {remotePeerId : String} {peerRecord : Json}
    (created : createPeerChannel process remotePeerId peerRecord = some ch) :
    ch.acceptance = none ∧ ch.reserved = none ∧ ch.Genuine sealed := by
  rw [createPeerChannel] at created
  split at created
  · split at created
    · cases created
    · cases created
      refine ⟨rfl, rfl, ?_, ?_⟩
      · intro box impossible
        cases impossible
      · intro frame impossible
        cases impossible
  · cases created

/-- A frame is sealed only under a reserved sequence number, which is spent. -/
theorem transmit_seals {outcome : Except PeerError (Option Nat)} {seals : Bool} {seq : Nat}
    (sealed : (ch.transmit outcome seals).2 = some seq) :
    outcome = .ok (some seq) ∧ (ch.transmit outcome seals).1.reserved = none := by
  simp only [transmit] at sealed ⊢
  split at sealed
  · split at sealed
    · next yes =>
      cases sealed
      rw [if_pos yes]
      exact ⟨rfl, rfl⟩
    · cases sealed
  · split at sealed <;> cases sealed

end Channel

/-! ## The store -/

/-- The stored high-waters cover what was accepted and reserved, and acceptances increase. -/
structure HighWaters (peers : List Json) (used : List String)
    (accepted reserved : List (String × Nat)) : Prop where
  distinct : Distinct peers
  keys : KeysUsed used peers
  receive : Covers "recv_seq" accepted peers
  send : Covers "send_seq" reserved peers
  accepted_used : ∀ entry ∈ accepted, entry.1 ∈ used
  reserved_used : ∀ entry ∈ reserved, entry.1 ∈ used
  increasing : accepted.Pairwise fun a b => a.1 = b.1 → a.2 < b.2

namespace HighWaters

variable {peers peers' : List Json} {used : List String} {accepted reserved : List (String × Nat)}
  {key : String} {seq : Nat}

/-- A counter is raised for a key in use, and the keys stay. -/
theorem keysUsed_raised {name : String} (other : "channel_key" ≠ name)
    (keys : KeysUsed used peers) (raised : Raised name key seq peers peers') :
    key ∈ used ∧ KeysUsed used peers' := by
  obtain ⟨before, peer, after, stored, rfl, own, -, -, -, rfl⟩ := raised
  refine ⟨keys peer (by simp) key own, ?_⟩
  intro peer' mem key' has
  rw [List.mem_append, List.mem_cons] at mem
  rcases mem with left | rfl | right
  · exact keys peer' (by simp [left]) key' has
  · rw [hasKey_setField other] at has
    exact keys peer (by simp) key' has
  · exact keys peer' (by simp [right]) key' has

/-- The receive high-water rises to an acceptance that is new and above all earlier ones. -/
theorem raise_receive (ok : HighWaters peers used accepted reserved)
    (raised : Raised "recv_seq" key seq peers peers') :
    HighWaters peers' used (accepted ++ [(key, seq)]) reserved ∧ (key, seq) ∉ accepted := by
  have above : ∀ earlier, (key, earlier) ∈ accepted → earlier < seq :=
    fun earlier mem => ok.receive.lt_of_raised raised mem
  obtain ⟨isUsed, keys⟩ := keysUsed_raised (by decide) ok.keys raised
  constructor
  · constructor
    · exact ok.distinct.of_raised (by decide) raised
    · exact keys
    · exact ok.receive.of_raised (by decide) ok.distinct raised
    · exact ok.send.of_raised_other (by decide) (by decide) raised
    · intro entry mem
      rcases List.mem_append.mp mem with before | new
      · exact ok.accepted_used entry before
      · rw [List.mem_singleton.mp new]
        exact isUsed
    · exact ok.reserved_used
    · rw [List.pairwise_append]
      refine ⟨ok.increasing, List.pairwise_singleton _ _, ?_⟩
      intro entry mem new isNew sameKey
      rw [List.mem_singleton.mp isNew] at sameKey ⊢
      obtain ⟨key', earlier⟩ := entry
      obtain rfl : key' = key := sameKey
      exact above earlier mem
  · intro mem
    exact Nat.lt_irrefl seq (above seq mem)

/-- A reserved sequence number was never reserved before. -/
theorem raise_send (ok : HighWaters peers used accepted reserved)
    (raised : Raised "send_seq" key seq peers peers') :
    HighWaters peers' used accepted (reserved ++ [(key, seq)]) ∧ (key, seq) ∉ reserved := by
  obtain ⟨isUsed, keys⟩ := keysUsed_raised (by decide) ok.keys raised
  constructor
  · exact { ok with
      distinct := ok.distinct.of_raised (by decide) raised
      keys := keys
      receive := ok.receive.of_raised_other (by decide) (by decide) raised
      send := ok.send.of_raised (by decide) ok.distinct raised
      reserved_used entry mem := by
        rcases List.mem_append.mp mem with before | new
        · exact ok.reserved_used entry before
        · rw [List.mem_singleton.mp new]
          exact isUsed }
  · intro mem
    exact Nat.lt_irrefl seq (ok.send.lt_of_raised raised mem)

/-- A raise of which nobody learns is a covering of less. -/
theorem forget {more : List (String × Nat)} {moreReserved : List (String × Nat)}
    (ok : HighWaters peers used (accepted ++ more) (reserved ++ moreReserved)) :
    HighWaters peers used accepted reserved :=
  { ok with
    receive := ok.receive.mono fun _ mem => List.mem_append_left _ mem
    send := ok.send.mono fun _ mem => List.mem_append_left _ mem
    accepted_used entry mem := ok.accepted_used entry (List.mem_append_left _ mem)
    reserved_used entry mem := ok.reserved_used entry (List.mem_append_left _ mem)
    increasing := (List.pairwise_append.mp ok.increasing).1 }

/-- Pairing under a fresh key keeps the high waters. -/
theorem pair {file : PeersFile} {faults : PeerFaults} {record : PeerRecord}
    (ok : HighWaters file.records used accepted reserved)
    (fresh : ∀ key ∈ record.channelKey, key ∉ used) :
    HighWaters (addPeer file faults record).2.records (record.channelKey.toList ++ used)
      accepted reserved := by
  have unissued : ∀ {issued : List (String × Nat)}, (∀ entry ∈ issued, entry.1 ∈ used) →
      ∀ peer ∈ (addPeer file faults record).2.records, peer ∈ file.records ∨
        ∀ key, hasKey key peer = true → ∀ seq, (key, seq) ∉ issued := by
    intro issued isUsed peer mem
    rcases mem_addPeer mem with before | rfl
    · exact Or.inl before
    · refine Or.inr ?_
      intro key has seq mem
      exact fresh key (hasKey_toJson has) (isUsed _ mem)
  constructor
  · exact distinct_addPeer fresh ok.keys ok.distinct
  · intro peer mem key has
    rcases mem_addPeer mem with before | rfl
    · exact List.mem_append_right _ (ok.keys peer before key has)
    · exact List.mem_append_left _ (by simp [hasKey_toJson has])
  · exact ok.receive.of_new (unissued ok.accepted_used)
  · exact ok.send.of_new (unissued ok.reserved_used)
  · intro entry mem
    exact List.mem_append_right _ (ok.accepted_used entry mem)
  · intro entry mem
    exact List.mem_append_right _ (ok.reserved_used entry mem)
  · exact ok.increasing

/-- Revoking a peer keeps the high waters. -/
theorem revoke {file : PeersFile} {faults : PeerFaults} {remoteEpk : String}
    (ok : HighWaters file.records used accepted reserved) :
    HighWaters (removePeer file faults remoteEpk).2.records used accepted reserved := by
  rcases removePeer_cases file faults remoteEpk with same | filtered
  · rwa [same]
  · have kept : ∀ peer ∈ (removePeer file faults remoteEpk).2.records, peer ∈ file.records := by
      intro peer mem
      rw [filtered] at mem
      exact List.mem_of_mem_filter mem
    exact { ok with
      distinct := by
        rw [filtered]
        exact List.Pairwise.filter _ ok.distinct
      keys peer mem key has := by
        exact ok.keys peer (kept peer mem) key has
      receive := ok.receive.of_new fun peer mem => Or.inl (kept peer mem)
      send := ok.send.of_new fun peer mem => Or.inl (kept peer mem) }

end HighWaters

/-! ## The world -/

/-- The ticket of a sealed message. -/
def SealedBox.ticket (box : SealedBox) : String × Nat := (box.channelKey, box.seq)

/-- Everything that has been sealed. -/
def OwnerWorld.sealed (w : OwnerWorld) : List SealedBox := w.appSealed ++ w.piSealed

structure OwnerInvariant (w : OwnerWorld) : Prop where
  highWaters : HighWaters w.file.records w.usedKeys w.accepted w.reserved
  acceptances : Tickets.Sound w.accepted (fun i => (w.channels i).bind Channel.acceptance)
    (w.dispatched.map fun delivery => delivery.2.ticket)
  reservations : Tickets.Sound w.reserved (fun i => (w.channels i).bind Channel.reserved)
    (w.piSealed.map SealedBox.ticket)
  genuine : ∀ i ch, w.channels i = some ch → ch.Genuine w.sealed
  piSealed : ∀ box ∈ w.piSealed, box.direction = .piToApp
  dispatched : ∀ delivery ∈ w.dispatched, delivery.2 ∈ w.appSealed

namespace OwnerInvariant

variable {w : OwnerWorld} {index : Nat} {ch ch' : Channel}

/-- A genuine channel stays genuine as more is sealed. -/
theorem genuine_mono {sealed sealed' : List SealedBox} (genuine : ch.Genuine sealed)
    (more : ∀ box ∈ sealed, box ∈ sealed') : ch.Genuine sealed' where
  key box has := by
    obtain ⟨key, direction, mem⟩ := genuine.key box has
    exact ⟨key, direction, more box mem⟩
  queue frame mem box is := more box (genuine.queue frame mem box is)

/-- Channels that follow the old ones, or hold nothing, keep the invariant. -/
theorem setChannels (inv : OwnerInvariant w) {channels : Nat → Option Channel}
    (follow : ∀ i ch', channels i = some ch' →
      (∃ ch, w.channels i = some ch ∧ Channel.Follows w.sealed ch ch') ∨
        ch'.acceptance = none ∧ ch'.reserved = none ∧ ch'.Genuine w.sealed) :
    OwnerInvariant { w with channels := channels } :=
  { inv with
    acceptances := by
      refine inv.acceptances.lose ?_
      intro i ticket has
      obtain ⟨ch', at', holds⟩ := Option.bind_eq_some_iff.mp has
      rcases follow i ch' at' with ⟨ch, before, follows⟩ | ⟨empty, -⟩
      · exact Option.bind_eq_some_iff.mpr ⟨ch, before, follows.acceptance ticket holds⟩
      · rw [empty] at holds
        cases holds
    reservations := by
      refine inv.reservations.lose ?_
      intro i ticket has
      obtain ⟨ch', at', holds⟩ := Option.bind_eq_some_iff.mp has
      rcases follow i ch' at' with ⟨ch, before, follows⟩ | ⟨-, empty, -⟩
      · exact Option.bind_eq_some_iff.mpr ⟨ch, before, follows.reserved ticket holds⟩
      · rw [empty] at holds
        cases holds
    genuine i ch' at' := by
      rcases follow i ch' at' with ⟨ch, before, follows⟩ | ⟨-, -, genuine⟩
      · exact follows.genuine (inv.genuine i ch before)
      · exact genuine }

/-- After an update, every channel follows an earlier one or holds no ticket. -/
theorem follow_update {i : Nat} {other : Channel} (at' : w.channels index = some ch)
    (follows : Channel.Follows w.sealed ch ch')
    (is : Function.update w.channels index (some ch') i = some other) :
    (∃ ch, w.channels i = some ch ∧ Channel.Follows w.sealed ch other) ∨
      other.acceptance = none ∧ other.reserved = none ∧ other.Genuine w.sealed := by
  left
  rcases eq_or_ne i index with rfl | elsewhere
  · rw [Function.update_self] at is
    cases is
    exact ⟨ch, at', follows⟩
  · rw [Function.update_of_ne elsewhere] at is
    exact ⟨other, is, Channel.SameWork.follows ⟨rfl, rfl, rfl, fun _ mem => mem⟩⟩

/-- One channel follows its former self. -/
theorem setChannel (inv : OwnerInvariant w) (at' : w.channels index = some ch)
    (follows : Channel.Follows w.sealed ch ch') : OwnerInvariant (w.setChannel index ch') :=
  inv.setChannels fun _ _ is => follow_update at' follows is

/-- The store changes and its high-waters still cover. -/
theorem setFile (inv : OwnerInvariant w) {file : PeersFile} {used : List String}
    (highWaters : HighWaters file.records used w.accepted w.reserved) :
    OwnerInvariant { w with file := file, usedKeys := used } :=
  { inv with
    highWaters := highWaters }

/-- A holder map that changes at one channel only. -/
theorem bind_update {τ : Type} {hold : Channel → Option τ} {i : Nat} {ticket : τ}
    (holds : (Function.update w.channels index (some ch') i).bind hold = some ticket) :
    (i = index ∧ hold ch' = some ticket) ∨
      i ≠ index ∧ (w.channels i).bind hold = some ticket := by
  rcases eq_or_ne i index with rfl | elsewhere
  · rw [Function.update_self] at holds
    exact Or.inl ⟨rfl, holds⟩
  · rw [Function.update_of_ne elsewhere] at holds
    exact Or.inr ⟨elsewhere, holds⟩

/-- If the updated channel is genuine, all channels are. -/
theorem genuine_update (inv : OwnerInvariant w) (genuine : ch'.Genuine w.sealed) (i : Nat)
    (other : Channel) (is : Function.update w.channels index (some ch') i = some other) :
    other.Genuine w.sealed := by
  rcases eq_or_ne i index with rfl | elsewhere
  · rw [Function.update_self] at is
    cases is
    exact genuine
  · rw [Function.update_of_ne elsewhere] at is
    exact inv.genuine i other is

variable {w' : OwnerWorld}

/-- Comparing a received sequence number keeps the invariant. -/
theorem compare (inv : OwnerInvariant w) {faults : PeerFaults} (at' : w.channels index = some ch)
    (taken : w.compare index ch faults = some w') : OwnerInvariant w' := by
  rw [OwnerWorld.compare] at taken
  split at taken
  case h_2 => cases taken
  case h_1 box drain =>
  have outcome := compareAndAdvanceRecvSeq_cases w.file faults ch.remotePeerId ch.channelKey box.seq
  generalize compareAndAdvanceRecvSeq w.file faults ch.remotePeerId ch.channelKey box.seq = result
    at taken outcome
  -- the comparison does not change which box is open
  have sameOpened : ∀ other, ({ ch with drain := .compared box result.1 } : Channel).opened =
      some other → ch.opened = some other := by
    intro other is
    rw [Channel.opened, drain]
    exact is
  have genuine : ({ ch with drain := .compared box result.1 } : Channel).Genuine w.sealed := by
    have before := inv.genuine index ch at'
    exact ⟨fun other is => before.key other (sameOpened other is), before.queue⟩
  simp only at taken
  split at taken
  · -- the acceptance is a new ticket, in the hands of this channel
    next accepted =>
    cases taken
    have raised : Raised "recv_seq" ch.channelKey box.seq w.file.records result.2.records := by
      rcases outcome with ⟨-, refused⟩ | raised
      · exact absurd accepted refused
      · exact raised
    obtain ⟨highWaters, fresh⟩ := inv.highWaters.raise_receive raised
    constructor
    · exact highWaters
    · refine inv.acceptances.issue (i := index) fresh ?_
      intro j other holds
      rcases bind_update holds with ⟨rfl, here⟩ | ⟨-, before⟩
      · rw [Channel.acceptance, accepted] at here
        exact Or.inl ⟨rfl, (Option.some.inj here).symm⟩
      · exact Or.inr before
    · refine inv.reservations.lose ?_
      intro j other holds
      rcases bind_update holds with ⟨rfl, here⟩ | ⟨-, before⟩
      · exact Option.bind_eq_some_iff.mpr ⟨ch, at', here⟩
      · exact before
    · exact inv.genuine_update genuine
    · exact inv.piSealed
    · exact inv.dispatched
  -- a refused sequence number is no ticket, whatever the file holds by now
  · next refused =>
    cases taken
    have highWaters : HighWaters result.2.records w.usedKeys w.accepted w.reserved := by
      rcases outcome with ⟨same, -⟩ | raised
      · rw [same]
        exact inv.highWaters
      · have more := (inv.highWaters.raise_receive raised).1
        rw [← List.append_nil w.reserved] at more
        exact more.forget
    refine (inv.setFile highWaters).setChannel at' ?_
    constructor
    · intro ticket holds
      rw [Channel.acceptance] at holds
      split at holds
      · next is =>
        injection is with _ accepted
        exact absurd accepted refused
      · cases holds
    · intro ticket holds
      exact holds
    · intro _
      exact genuine

/-- Resuming after the comparison keeps the invariant. -/
theorem resume (inv : OwnerInvariant w) (at' : w.channels index = some ch)
    (taken : w.resume index ch = some w') : OwnerInvariant w' := by
  rw [OwnerWorld.resume] at taken
  split at taken
  case h_2 => cases taken
  case h_1 box outcome drain =>
  have follows : Channel.Follows w.sealed ch (ch.resume box outcome).1 := Channel.follows_resume
  have genuine : box.channelKey = ch.channelKey ∧ box.direction = .appToPi ∧ box ∈ w.sealed :=
    (inv.genuine index ch at').key box (by rw [Channel.opened, drain])
  simp only at taken
  split at taken
  · next dispatches =>
    cases taken
    obtain ⟨rfl, spent⟩ := Channel.resume_dispatches dispatches
    have before := inv.setChannel at' follows
    exact { before with
      acceptances := by
        rw [List.map_append]
        have holds : (w.channels index).bind Channel.acceptance = some box.ticket := by
          rw [at', Option.bind_some, Channel.acceptance, drain, SealedBox.ticket, genuine.1]
        refine inv.acceptances.use holds ?_ ?_
        · rw [OwnerWorld.setChannel]
          simp only [Function.update_self]
          exact spent
        · intro j other holds'
          rcases bind_update holds' with ⟨rfl, here⟩ | ⟨-, elsewhere⟩
          · rw [spent] at here
            cases here
          · exact elsewhere
      dispatched delivery mem := by
        rcases List.mem_append.mp mem with earlier | now
        · exact inv.dispatched delivery earlier
        · -- the Pi seals in the other direction only
          rw [List.mem_singleton.mp now]
          rcases List.mem_append.mp genuine.2.2 with app | pi
          · exact app
          · have direction := inv.piSealed box pi
            rw [genuine.2.1] at direction
            cases direction }
  · cases taken
    exact inv.setChannel at' follows

/-- Reserving a sequence number keeps the invariant. -/
theorem reserve (inv : OwnerInvariant w) {faults : PeerFaults} (at' : w.channels index = some ch)
    (taken : w.reserve index ch faults = some w') : OwnerInvariant w' := by
  rw [OwnerWorld.reserve] at taken
  split at taken
  case h_2 => cases taken
  case h_1 json rest work idle =>
  have outcome := reserveSendSeq_cases w.file faults ch.remotePeerId ch.channelKey
  generalize reserveSendSeq w.file faults ch.remotePeerId ch.channelKey = result at taken outcome
  have genuine : ({ ch with reservation := some result.1 } : Channel).Genuine w.sealed := by
    have before := inv.genuine index ch at'
    exact ⟨before.key, before.queue⟩
  simp only at taken
  split at taken
  · -- the reservation is a new ticket, in the hands of this channel
    next seq returned =>
    cases taken
    have raised : Raised "send_seq" ch.channelKey seq w.file.records result.2.records := by
      rcases outcome with ⟨-, refused⟩ | ⟨other, raised, only⟩
      · exact absurd returned (refused seq)
      · rw [only seq returned]
        exact raised
    obtain ⟨highWaters, fresh⟩ := inv.highWaters.raise_send raised
    constructor
    · exact highWaters
    · refine inv.acceptances.lose ?_
      intro j other holds
      rcases bind_update holds with ⟨rfl, here⟩ | ⟨-, before⟩
      · exact Option.bind_eq_some_iff.mpr ⟨ch, at', here⟩
      · exact before
    · refine inv.reservations.issue (i := index) fresh ?_
      intro j other holds
      rcases bind_update holds with ⟨rfl, here⟩ | ⟨-, before⟩
      · rw [Channel.reserved, returned] at here
        exact Or.inl ⟨rfl, (Option.some.inj here).symm⟩
      · exact Or.inr before
    · exact inv.genuine_update genuine
    · exact inv.piSealed
    · exact inv.dispatched
  -- without a sequence number there is no ticket, whatever the file holds by now
  · next refused =>
    cases taken
    have highWaters : HighWaters result.2.records w.usedKeys w.accepted w.reserved := by
      rcases outcome with ⟨same, -⟩ | ⟨other, raised, -⟩
      · rw [same]
        exact inv.highWaters
      · have more := (inv.highWaters.raise_send raised).1
        rw [← List.append_nil w.accepted] at more
        exact more.forget
    refine (inv.setFile highWaters).setChannel at' ?_
    constructor
    · intro ticket holds
      exact holds
    · intro ticket holds
      rw [Channel.reserved] at holds
      split at holds
      · next seq is =>
        injection is with returned
        exact absurd returned (refused seq)
      · cases holds
    · intro _
      exact genuine

/-- Sealing and sending keeps the invariant. -/
theorem transmit (inv : OwnerInvariant w) {nonce : Option Nat} (at' : w.channels index = some ch)
    (taken : w.transmit index ch nonce = some w') : OwnerInvariant w' := by
  rw [OwnerWorld.transmit] at taken
  split at taken
  case h_2 => cases taken
  case h_1 json rest outcome work result =>
  have follows : Channel.Follows w.sealed ch (ch.transmit outcome nonce.isSome).1 :=
    Channel.follows_transmit
  have before := inv.setChannel at' follows
  simp only at taken
  split at taken
  · next seq sealed =>
    cases taken
    obtain ⟨rfl, spent⟩ := Channel.transmit_seals sealed
    constructor
    · exact before.highWaters
    · exact before.acceptances
    · rw [List.map_append]
      have holds : (w.channels index).bind Channel.reserved = some (ch.channelKey, seq) := by
        rw [at', Option.bind_some, Channel.reserved, result]
      refine inv.reservations.use holds ?_ ?_
      · rw [OwnerWorld.setChannel]
        simp only [Function.update_self]
        exact spent
      · intro j other holds'
        rcases bind_update holds' with ⟨rfl, here⟩ | ⟨-, elsewhere⟩
        · rw [spent] at here
          cases here
        · exact elsewhere
    · intro j other is
      refine genuine_mono (before.genuine j other is) ?_
      intro box mem
      rcases List.mem_append.mp mem with app | pi
      · exact List.mem_append_left _ app
      · exact List.mem_append_right _ (List.mem_append_left _ pi)
    · intro box mem
      rcases List.mem_append.mp mem with earlier | new
      · exact inv.piSealed box earlier
      · rw [List.mem_singleton.mp new]
    · exact before.dispatched
  · cases taken
    exact before

/-- The step lemma: every action of owner, relay or storage keeps the invariant. -/
theorem step {decodes : String → Bool} {action : OwnerAction} (inv : OwnerInvariant w)
    (taken : (ownerMachine decodes).step w action = some w') : OwnerInvariant w' := by
  cases action with
  | pair record faults =>
    simp only [ownerMachine, OwnerWorld.pair] at taken
    obtain ⟨fresh, rfl⟩ := Machine.of_guard taken
    exact inv.setFile (inv.highWaters.pair fresh)
  | revoke remoteEpk faults =>
    cases taken
    exact inv.setFile inv.highWaters.revoke
  -- a new channel holds no ticket
  | attach index process remotePeerId peerRecord =>
    simp only [ownerMachine] at taken
    split at taken
    · obtain ⟨ch, created, rfl⟩ := Option.map_eq_some_iff.mp taken
      refine inv.setChannels ?_
      intro i other is
      rcases eq_or_ne i index with rfl | elsewhere
      · rw [Function.update_self] at is
        cases is
        exact Or.inr (Channel.createPeerChannel_empty created)
      · rw [Function.update_of_ne elsewhere] at is
        exact Or.inl ⟨other, is, Channel.SameWork.follows ⟨rfl, rfl, rfl, fun _ mem => mem⟩⟩
    · cases taken
  | detach index =>
    obtain ⟨ch, at', rfl⟩ := Option.map_eq_some_iff.mp taken
    exact inv.setChannel at' (Channel.sameWork_detach ch).follows
  | crash process =>
    cases taken
    refine inv.setChannels ?_
    intro i ch survives
    obtain ⟨before, -⟩ := Option.filter_eq_some_iff.mp survives
    exact Or.inl ⟨ch, before, Channel.SameWork.follows ⟨rfl, rfl, rfl, fun _ mem => mem⟩⟩
  -- what the app seals only adds to the boxes there are
  | appSeal box =>
    simp only [ownerMachine] at taken
    obtain ⟨_, rfl⟩ := Machine.of_guard taken
    exact { inv with
      genuine i ch at' := by
        refine genuine_mono (inv.genuine i ch at') ?_
        intro other mem
        rcases List.mem_append.mp mem with app | pi
        · exact List.mem_append_left _ (List.mem_append_left _ app)
        · exact List.mem_append_right _ pi
      dispatched delivery mem := by
        exact List.mem_append_left _ (inv.dispatched delivery mem) }
  -- the relay delivers what was sealed, whoever sealed it
  | ingress index frame =>
    simp only [ownerMachine] at taken
    split at taken
    · next has =>
      obtain ⟨ch, at', rfl⟩ := Option.map_eq_some_iff.mp taken
      refine inv.setChannel at' (Channel.follows_onIngress (inv.genuine index ch at') ?_)
      intro box cipher
      simpa [OwnerWorld.relayHas, cipher, OwnerWorld.sealed] using has
    · cases taken
  | drain index =>
    obtain ⟨ch, at', drained⟩ := Option.bind_eq_some_iff.mp taken
    split at drained
    · cases drained
      exact inv.setChannel at' (Channel.follows_drainInbound (inv.genuine index ch at'))
    · cases drained
  | compare index faults =>
    obtain ⟨ch, at', compared⟩ := Option.bind_eq_some_iff.mp taken
    exact inv.compare at' compared
  | resume index =>
    obtain ⟨ch, at', resumed⟩ := Option.bind_eq_some_iff.mp taken
    exact inv.resume at' resumed
  | send index json =>
    obtain ⟨ch, at', rfl⟩ := Option.map_eq_some_iff.mp taken
    exact inv.setChannel at' Channel.follows_send
  | reserve index faults =>
    obtain ⟨ch, at', reserved⟩ := Option.bind_eq_some_iff.mp taken
    exact inv.reserve at' reserved
  | transmit index nonce =>
    obtain ⟨ch, at', transmitted⟩ := Option.bind_eq_some_iff.mp taken
    exact inv.transmit at' transmitted

/-- The invariant holds at the start. -/
theorem init {decodes : String → Bool} (initial : (ownerMachine decodes).Init w) :
    OwnerInvariant w := by
  obtain ⟨distinct, keys, channels, appSealed, piSealed, reserved, accepted, dispatched⟩ := initial
  have none : ∀ {τ : Type} (hold : Channel → Option τ),
      (fun i => (w.channels i).bind hold) = fun _ => Option.none := by
    intro τ hold
    rw [channels]
    rfl
  constructor
  · rw [accepted, reserved]
    constructor
    · exact distinct
    · exact keys
    · intro peer mem key seq issued
      cases issued
    · intro peer mem key seq issued
      cases issued
    · intro entry mem
      cases mem
    · intro entry mem
      cases mem
    · exact List.Pairwise.nil
  · rw [accepted, dispatched, none]
    exact Tickets.Sound.nil
  · rw [reserved, piSealed, none]
    exact Tickets.Sound.nil
  · intro i ch at'
    rw [channels] at at'
    cases at'
  · rw [piSealed]
    intro box mem
    cases mem
  · rw [dispatched]
    intro delivery mem
    cases mem

end OwnerInvariant

/-! ## Whole runs -/

/-- In every run, whatever the relay delivers and whichever processes crash: each frame is
dispatched at most once over all instances and was sealed by the app; the sequences accepted
under one key strictly increase, and what is dispatched was accepted; and no two frames that
the Pi sealed under one key carry the same sequence. -/
theorem owner_channel_at_most_once (decodes : String → Bool) {w : OwnerWorld}
    (reached : (ownerMachine decodes).Reachable w) :
    ((w.dispatched.map Prod.snd).Nodup ∧ ∀ delivery ∈ w.dispatched, delivery.2 ∈ w.appSealed) ∧
      ((∀ key, ((w.accepted.filter fun entry => entry.1 = key).map Prod.snd).Pairwise (· < ·)) ∧
        (w.dispatched.map fun delivery => delivery.2.ticket).Nodup ∧
        ∀ delivery ∈ w.dispatched, delivery.2.ticket ∈ w.accepted) ∧
      (w.piSealed.map SealedBox.ticket).Nodup := by
  have inv : OwnerInvariant w :=
    reached.invariant (fun _ initial => OwnerInvariant.init initial)
      fun _ _ _ inv _ taken => inv.step taken
  have once := inv.acceptances.nodup_used
  refine ⟨⟨?_, inv.dispatched⟩, ⟨?_, once, ?_⟩, inv.reservations.nodup_used⟩
  · have regrouped : ((w.dispatched.map Prod.snd).map SealedBox.ticket).Nodup := by
      rw [List.map_map]
      exact once
    exact regrouped.of_map
  · intro key
    rw [List.pairwise_map]
    refine (List.Pairwise.filter _ inv.highWaters.increasing).imp_of_mem ?_
    intro a b memA memB increases
    have keyA : a.1 = key := by simpa using (List.mem_filter.mp memA).2
    have keyB : b.1 = key := by simpa using (List.mem_filter.mp memB).2
    exact increases (keyA.trans keyB.symm)
  · intro delivery mem
    exact inv.acceptances.issued_of_used _ (List.mem_map_of_mem mem)

/-- Two processes of one Owner: a duplicated frame reaches both, and one of them dispatches it.
A reply is sealed under a sequence of its own. -/
theorem owner_channel_at_most_once_two_processes :
    let box : SealedBox := ⟨"key", .appToPi, 1, 0, "prompt"⟩
    let record : PeerRecord := ⟨"phone", "owner", "2026-01-01", some "key", some "0", some "0"⟩
    let start : OwnerWorld := ⟨.absent, fun _ => none, [], [], [], [], [], []⟩
    let frame : Frame := ⟨1, 1, .sealed box⟩
    ∃ w, (ownerMachine fun _ => true).exec start
        [.pair record .none, .attach 0 0 "owner" record.toJson, .attach 1 1 "owner" record.toJson,
          .appSeal box, .ingress 0 frame, .ingress 1 frame, .compare 1 .none, .compare 0 .none,
          .resume 0, .resume 1, .send 1 "reply", .reserve 1 .none, .transmit 1 (some 7)] = some w ∧
      (w.dispatched = [(1, box)] ∧ w.piSealed = [⟨"key", .piToApp, 1, 7, "reply"⟩]) ∧
      (w.dispatched.map Prod.snd).Nodup := by
  intro box record start frame
  have initial : (ownerMachine fun _ => true).Init start := by
    refine ⟨List.Pairwise.nil, ?_, rfl, rfl, rfl, rfl, rfl, rfl⟩
    intro peer mem
    cases mem
  have ran : ((ownerMachine fun _ => true).exec start
      [.pair record .none, .attach 0 0 "owner" record.toJson, .attach 1 1 "owner" record.toJson,
        .appSeal box, .ingress 0 frame, .ingress 1 frame, .compare 1 .none, .compare 0 .none,
        .resume 0, .resume 1, .send 1 "reply", .reserve 1 .none, .transmit 1 (some 7)]).any
      (fun w => decide (w.dispatched = [(1, box)] ∧
        w.piSealed = [⟨"key", .piToApp, 1, 7, "reply"⟩])) = true := by decide
  obtain ⟨w, executed, traced⟩ := (Option.any_eq_true _ _).mp ran
  exact ⟨w, executed, of_decide_eq_true traced,
    (owner_channel_at_most_once _ (Machine.reachable_of_exec initial executed)).1.1⟩

end OutpostPi.Pi
