import OutpostPi.Lib.Map

/-!
# The channel states that the app stores

`PairingStorage` keeps the keys and sequence high-waters of the owner channel of each paired peer.
`channelToWrite` is the state that a write leaves: a pairing replaces it, and every other write
merges the sequences upwards and leaves the keys alone, unless it restores the record of a peer
that is gone.
-/

set_option autoImplicit false

namespace OutpostPi.App

open OutpostPi.Lib

/-! ## Records -/

/-- The two directional keys of an owner channel. -/
structure ChannelKeys where
  sendKey : String
  receiveKey : String
  deriving DecidableEq

/-- A direction of an owner channel, from the app. -/
inductive Side
  | send
  | receive
  deriving DecidableEq

structure OwnerChannelState where
  keys : ChannelKeys
  sendSequence : Nat
  receiveSequence : Nat
  deriving DecidableEq

def OwnerChannelState.sequence (state : OwnerChannelState) : Side → Nat
  | .send => state.sendSequence
  | .receive => state.receiveSequence

/-- What is stored for a peer. -/
structure StoredPeer where
  channel : Option OwnerChannelState
  deriving DecidableEq

structure PeerRecord where
  remoteEpk : String
  channel : Option OwnerChannelState
  deriving DecidableEq

/-! ## Writes -/

/-- The flags of `_writePeer`. -/
structure WriteFlags where
  allowCreate : Bool := false
  replaceChannelKeys : Bool := false
  metadataOnly : Bool := false
  restoreChannelIfAbsent : Bool := false

/-- The supplied state with the higher of the two sequences on each side. -/
def maxMerge (current supplied : OwnerChannelState) : OwnerChannelState :=
  { supplied with
    sendSequence :=
      if current.sendSequence > supplied.sendSequence then current.sendSequence
      else supplied.sendSequence
    receiveSequence :=
      if current.receiveSequence > supplied.receiveSequence then current.receiveSequence
      else supplied.receiveSequence }

/-- The channel of a captured record, for a peer that is gone. -/
def restoredChannel (flags : WriteFlags) (peerExists : Bool)
    (supplied : Option OwnerChannelState) : Option OwnerChannelState :=
  if !peerExists && flags.restoreChannelIfAbsent then supplied else none

def channelToWrite (flags : WriteFlags) (peerExists : Bool)
    (current supplied : Option OwnerChannelState) : Option OwnerChannelState :=
  if flags.replaceChannelKeys then supplied
  else
    match flags.metadataOnly, current, supplied with
    | false, some current, some supplied =>
      if current.keys = supplied.keys then some (maxMerge current supplied)
      else restoredChannel flags peerExists (some supplied)
    | _, _, supplied => restoredChannel flags peerExists supplied

theorem sequence_maxMerge (current supplied : OwnerChannelState) (side : Side) :
    current.sequence side ≤ (maxMerge current supplied).sequence side ∧
      supplied.sequence side ≤ (maxMerge current supplied).sequence side := by
  cases side with
  | send =>
    simp only [OwnerChannelState.sequence, maxMerge]
    split <;> omega
  | receive =>
    simp only [OwnerChannelState.sequence, maxMerge]
    split <;> omega

end OutpostPi.App
