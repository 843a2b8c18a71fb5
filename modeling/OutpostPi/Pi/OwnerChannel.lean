import OutpostPi.Lib.Machine
import OutpostPi.Pi.HighWater

/-!
# Protected owner channels

A `SecurePeerChannel` serves one Owner in one Pi process. Its incoming frames wait in a queue
that is drained one at a time, and its outgoing messages form a chain of reservations and
seals. Both sides stop at the peer store: a received sequence is dispatched only after
`compareAndAdvanceRecvSeq`, and a frame is sealed only after `reserveSendSeq`.

`ownerMachine` runs any number of channels in any number of processes over one `peers.json`,
against a relay that delivers what it likes. The authenticated encryption is ideal: a
ciphertext opens only under the key, direction and sequence it was sealed with, and the relay
cannot make one. A channel key stands for the two directional keys that it encodes.
-/

set_option autoImplicit false

namespace OutpostPi.Pi

open OutpostPi.Lib

/-! ## Frames -/

/-- The direction of a frame, which is part of what it authenticates. -/
inductive Direction
  | appToPi
  | piToApp
  deriving DecidableEq

/-- A sealed message. -/
structure SealedBox where
  channelKey : String
  direction : Direction
  seq : Nat
  nonce : Nat
  json : String
  deriving DecidableEq

/-- The nonce and ciphertext of a frame: those of a sealed message, or any other bytes. -/
inductive Ciphertext
  | sealed (box : SealedBox)
  | forged
  deriving DecidableEq

/-- A frame with the header that the relay can rewrite. -/
structure Frame where
  version : UInt8
  seq : Nat
  ciphertext : Ciphertext
  deriving DecidableEq

/-- `FRAME_VERSION`. -/
def frameVersion : UInt8 := 0x01

/-- Open a frame for the Pi. -/
def openFrame (channelKey : String) (frame : Frame) (lastSeq : Nat) : Option SealedBox :=
  if frame.version ≠ frameVersion then none
  else if frame.seq ≤ lastSeq then none
  else
    match frame.ciphertext with
    | .forged => none
    | .sealed box =>
      if box.channelKey = channelKey ∧ box.direction = .appToPi ∧ box.seq = frame.seq then
        some box
      else none

/-! ## One channel -/

/-- Where the inbound drain stands: not running, before the next frame, waiting for the
comparison of an opened frame, or about to resume with its result. -/
inductive Drain
  | idle
  | next
  | comparing (box : SealedBox)
  | compared (box : SealedBox) (outcome : Except PeerError RecvSeqAdvanceResult)

/-- A channel instance. `outbound` holds the accepted messages whose continuation has not
finished, the one in work first. -/
structure Channel where
  process : Nat
  remotePeerId : String
  channelKey : String
  detached : Bool
  disconnectNotified : Bool
  recvSeq : Nat
  consecutiveOpenFailures : Nat
  outbound : List String
  reservation : Option (Except PeerError (Option Nat))
  inboundQueue : List Frame
  drain : Drain

/-- How many frames in a row may fail to open. -/
def maxOpenFailures : Nat := 5
/-- How many frames may wait to be opened. -/
def maxPendingOwnerFrames : Nat := 64
/-- How many messages may wait to be sealed. -/
def maxPendingOwnerOutboundFrames : Nat := 512
/-- How large the messages that wait may be. -/
def maxPendingOwnerOutboundBytes : Nat := 16 * 1024 * 1024

/-- The channel of a peer record, unless its protected state is invalid. -/
def createPeerChannel (process : Nat) (remotePeerId : String) (peerRecord : Json) :
    Option Channel :=
  match peerRecord.field "channel_key", parsePeerChannelSequence (peerRecord.field "send_seq"),
      parsePeerChannelSequence (peerRecord.field "recv_seq") with
  | some (.string channelKey), some _, some recvSeq =>
    if channelKey = "" then none
    else
      some
        { process := process
          remotePeerId := remotePeerId
          channelKey := channelKey
          detached := false
          disconnectNotified := false
          recvSeq := recvSeq
          consecutiveOpenFailures := 0
          outbound := []
          reservation := none
          inboundQueue := []
          drain := .idle }
  | _, _, _ => none

namespace Channel

/-- A detached channel drops what waits to be opened. -/
def detach (ch : Channel) : Channel :=
  if ch.detached then ch else { ch with detached := true, inboundQueue := [] }

/-- A channel that has failed is detached, once. -/
def disconnect (ch : Channel) : Channel :=
  if ch.disconnectNotified then ch else { ch with disconnectNotified := true }.detach

/-- Count a protected frame that was not dispatched. -/
def openFailed (ch : Channel) : Channel :=
  let counted := { ch with consecutiveOpenFailures := ch.consecutiveOpenFailures + 1 }
  if maxOpenFailures ≤ counted.consecutiveOpenFailures then counted.disconnect else counted

/-- The bytes of the accepted messages. -/
def pendingOutboundBytes (ch : Channel) : Nat := (ch.outbound.map String.utf8ByteSize).sum

/-- Queue a message, or disconnect the Owner where it does not fit. -/
def send (ch : Channel) (json : String) : Channel :=
  if ch.detached then ch
  else if maxPendingOwnerOutboundFrames ≤ ch.outbound.length ∨
      maxPendingOwnerOutboundBytes - ch.pendingOutboundBytes < json.utf8ByteSize then
    ch.disconnect
  else { ch with outbound := ch.outbound ++ [json] }

/-- Finish the message in work with the result of its reservation. -/
def transmit (ch : Channel) (outcome : Except PeerError (Option Nat)) (seals : Bool) :
    Channel × Option Nat :=
  let rest := { ch with outbound := ch.outbound.tail, reservation := none }
  match outcome with
  | .ok (some seq) => if seals then (rest, some seq) else (rest.disconnect, none)
  | _ => (if ch.detached then rest else rest.disconnect, none)

variable (decodes : String → Bool)

/-- `openAndRoute` up to the comparison. -/
def openAndRoute (ch : Channel) (frame : Frame) : Channel :=
  if ch.detached then { ch with drain := .next }
  else
    match openFrame ch.channelKey frame ch.recvSeq with
    | none => { ch.openFailed with drain := .next }
    | some box =>
      if decodes box.json then { ch with drain := .comparing box }
      else { ch.openFailed with drain := .next }

/-- One round of the drain loop. -/
def drainInbound (ch : Channel) : Channel :=
  if ch.detached then { ch with drain := .idle }
  else
    match ch.inboundQueue with
    | [] => { ch with drain := .idle }
    | frame :: queue => { ch with inboundQueue := queue }.openAndRoute decodes frame

/-- Start a drain unless one is running. -/
def ensureInboundDrain (ch : Channel) : Channel :=
  match ch.drain with
  | .idle => if ch.detached then ch else ch.drainInbound decodes
  | _ => ch

/-- A frame arrives. -/
def onIngress (ch : Channel) (frame : Frame) : Channel :=
  if ch.detached then ch
  else if frame.version ≠ frameVersion then ch
  else if maxPendingOwnerFrames ≤ ch.inboundQueue.length then ch
  else { ch with inboundQueue := ch.inboundQueue ++ [frame] }.ensureInboundDrain decodes

/-- `openAndRoute` from the result of the comparison on; whether the message is dispatched. -/
def resume (ch : Channel) (box : SealedBox) (outcome : Except PeerError RecvSeqAdvanceResult) :
    Channel × Bool :=
  let ch := { ch with drain := .next }
  if ch.detached then (ch, false)
  else
    match outcome with
    | .error _ => (ch.disconnect, false)
    | .ok .replay => (ch.openFailed, false)
    | .ok .staleGeneration => (ch.disconnect, false)
    | .ok .accepted => ({ ch with recvSeq := box.seq, consecutiveOpenFailures := 0 }, true)

end Channel

/-! ## All processes and the relay -/

/-- The shared file, the channel instances by number, and the history: the channel keys paired
so far, the frames sealed by the app and by the Pi, the sequences reserved and accepted, and the
frames dispatched with the instance that dispatched them. -/
structure OwnerWorld where
  file : PeersFile
  channels : Nat → Option Channel
  usedKeys : List String
  appSealed : List SealedBox
  piSealed : List SealedBox
  reserved : List (String × Nat)
  accepted : List (String × Nat)
  dispatched : List (Nat × SealedBox)

/-- What the user, the Owners and the store do. -/
inductive OwnerAction
  | pair (record : PeerRecord) (faults : PeerFaults)
  | revoke (remoteEpk : String) (faults : PeerFaults)
  | attach (index process : Nat) (remotePeerId : String) (peerRecord : Json)
  | detach (index : Nat)
  | crash (process : Nat)
  | appSeal (box : SealedBox)
  | ingress (index : Nat) (frame : Frame)
  | drain (index : Nat)
  | compare (index : Nat) (faults : PeerFaults)
  | resume (index : Nat)
  | send (index : Nat) (json : String)
  | reserve (index : Nat) (faults : PeerFaults)
  | transmit (index : Nat) (nonce : Option Nat)

namespace OwnerWorld

/-- Replace one instance. -/
def setChannel (w : OwnerWorld) (index : Nat) (ch : Channel) : OwnerWorld :=
  { w with channels := Function.update w.channels index (some ch) }

/-- The relay has the ciphertext of the frame. -/
def relayHas (w : OwnerWorld) (frame : Frame) : Bool :=
  match frame.ciphertext with
  | .forged => true
  | .sealed box => w.appSealed.contains box || w.piSealed.contains box

/-- Pair an Owner. The channel key comes from a key exchange and has not been used before. -/
def pair (w : OwnerWorld) (record : PeerRecord) (faults : PeerFaults) : Option OwnerWorld :=
  if ∀ key ∈ record.channelKey, key ∉ w.usedKeys then
    some { w with
      file := (addPeer w.file faults record).2
      usedKeys := record.channelKey.toList ++ w.usedKeys }
  else none

/-- Compare the sequence of an opened frame. -/
def compare (w : OwnerWorld) (index : Nat) (ch : Channel) (faults : PeerFaults) :
    Option OwnerWorld :=
  match ch.drain with
  | .comparing box =>
    let result := compareAndAdvanceRecvSeq w.file faults ch.remotePeerId ch.channelKey box.seq
    let w := { w with file := result.2 }.setChannel index
      { ch with drain := .compared box result.1 }
    match result.1 with
    | .ok .accepted => some { w with accepted := w.accepted ++ [(ch.channelKey, box.seq)] }
    | _ => some w
  | _ => none

/-- Resume the drain after a comparison. -/
def resume (w : OwnerWorld) (index : Nat) (ch : Channel) : Option OwnerWorld :=
  match ch.drain with
  | .compared box outcome =>
    let resumed := ch.resume box outcome
    let w := w.setChannel index resumed.1
    if resumed.2 then some { w with dispatched := w.dispatched ++ [(index, box)] } else some w
  | _ => none

/-- Reserve a sequence for the message in work. -/
def reserve (w : OwnerWorld) (index : Nat) (ch : Channel) (faults : PeerFaults) :
    Option OwnerWorld :=
  match ch.outbound, ch.reservation with
  | _ :: _, none =>
    let result := reserveSendSeq w.file faults ch.remotePeerId ch.channelKey
    let w := { w with file := result.2 }.setChannel index
      { ch with reservation := some result.1 }
    match result.1 with
    | .ok (some seq) => some { w with reserved := w.reserved ++ [(ch.channelKey, seq)] }
    | _ => some w
  | _, _ => none

/-- Seal the message in work and hand it to the relay. -/
def transmit (w : OwnerWorld) (index : Nat) (ch : Channel) (nonce : Option Nat) :
    Option OwnerWorld :=
  match ch.outbound, ch.reservation with
  | json :: _, some outcome =>
    let done := ch.transmit outcome nonce.isSome
    let w := w.setChannel index done.1
    match done.2 with
    | some seq =>
      some { w with
        piSealed := w.piSealed ++ [⟨ch.channelKey, .piToApp, seq, nonce.getD 0, json⟩] }
    | none => some w
  | _, _ => none

end OwnerWorld

/-- All channel instances over the shared file. -/
def ownerMachine (decodes : String → Bool) : Machine OwnerWorld OwnerAction where
  Init w := Distinct w.file.records ∧ KeysUsed w.usedKeys w.file.records ∧
    w.channels = (fun _ => none) ∧ w.appSealed = [] ∧ w.piSealed = [] ∧ w.reserved = [] ∧
    w.accepted = [] ∧ w.dispatched = []
  step w
    | .pair record faults => w.pair record faults
    | .revoke remoteEpk faults => some { w with file := (removePeer w.file faults remoteEpk).2 }
    | .attach index process remotePeerId peerRecord =>
      match w.channels index with
      | none => (createPeerChannel process remotePeerId peerRecord).map (w.setChannel index)
      | some _ => none
    | .detach index => (w.channels index).map fun ch => w.setChannel index ch.detach
    | .crash process =>
      some { w with
        channels := fun index =>
          (w.channels index).filter fun ch => decide (ch.process ≠ process) }
    | .appSeal box =>
      if box.direction = .appToPi then some { w with appSealed := w.appSealed ++ [box] } else none
    | .ingress index frame =>
      if w.relayHas frame then
        (w.channels index).map fun ch => w.setChannel index (ch.onIngress decodes frame)
      else none
    | .drain index =>
      (w.channels index).bind fun ch =>
        match ch.drain with
        | .next => some (w.setChannel index (ch.drainInbound decodes))
        | _ => none
    | .compare index faults => (w.channels index).bind fun ch => w.compare index ch faults
    | .resume index => (w.channels index).bind fun ch => w.resume index ch
    | .send index json => (w.channels index).map fun ch => w.setChannel index (ch.send json)
    | .reserve index faults => (w.channels index).bind fun ch => w.reserve index ch faults
    | .transmit index nonce => (w.channels index).bind fun ch => w.transmit index ch nonce

end OutpostPi.Pi
