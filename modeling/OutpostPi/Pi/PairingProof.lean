import OutpostPi.Lib.Base64
import OutpostPi.Lib.Machine
import OutpostPi.Pi.PeerStorage

/-!
# The pairing token proof

A QR token is issued, expires, is replaced and is cleared, and pairing requests of any peers are
checked against it: a request names the token by its locator and proves knowledge of it by a
MAC, and the Owner's signature binds the key share. The token is consumed only when both hold,
and then the Owner is added to the stored peers.

The hash, the MAC and the signature check are parameters. `pairing_proof_gate` says who is
added, what a request without a valid MAC leaves unchanged, and that its reply does not depend
on the stage of the token.
-/

set_option autoImplicit false

namespace OutpostPi.Pi

open OutpostPi.Lib

/-! ## Cryptography -/

/-- Octets. -/
abbrev Bytes := List UInt8

/-- The primitives: the SHA-256 hash, HMAC-SHA256 of a key and a message, and the Ed25519
verification of a key, a message and a signature, which can throw. -/
structure PairingCrypto where
  sha256 : Bytes → Bytes
  hmacSha256 : Bytes → Bytes → Bytes
  ed25519Verify : Bytes → Bytes → Bytes → Option Bool

/-- The UTF-8 octets of a text. -/
def utf8 (value : String) : Bytes := value.toUTF8.data.toList

/-- `OWNER_CHANNEL_SUITE`. -/
def ownerChannelSuite : String := "outpost-pi-owner-channel-v1"

/-- The text that a pairing MAC authenticates; it throws on a wrong width. -/
def pairMacMessage (tokenId ownerEdPk appDhPk piEdPk : Bytes) : Option Bytes :=
  if tokenId.length ≠ 16 then none
  else if ownerEdPk.length ≠ 32 ∨ appDhPk.length ≠ 32 ∨ piEdPk.length ≠ 32 then none
  else some (utf8 (ownerChannelSuite ++ "\npair\n") ++ tokenId ++ ownerEdPk ++ appDhPk ++ piEdPk)

/-- What the Owner's app signs: the token, its key share and the key of the Pi. -/
def appTranscript (token : String) (appDhPk piEdPk : Bytes) : Bytes :=
  utf8 (ownerChannelSuite ++ "\napp\n") ++ utf8 token ++ appDhPk ++ piEdPk

namespace PairingCrypto

variable (crypto : PairingCrypto)

/-- The locator of a token. -/
def pairTokenId (token : String) : Bytes := (crypto.sha256 (utf8 token)).take 16

/-- The MAC that proves a token, unless a key has a wrong width. -/
def computePairMac (token : String) (tokenId ownerEdPk appDhPk piEdPk : Bytes) : Option Bytes :=
  (pairMacMessage tokenId ownerEdPk appDhPk piEdPk).map (crypto.hmacSha256 (utf8 token))

/-- A MAC is compared at its full width only. -/
def verifyPairMac (token : String) (tokenId ownerEdPk appDhPk piEdPk candidate : Bytes) : Bool :=
  if candidate.length ≠ 32 then false
  else
    match crypto.computePairMac token tokenId ownerEdPk appDhPk piEdPk with
    | none => false
    | some expected => expected == candidate

end PairingCrypto

/-! ## The QR session -/

/-- A token with its locator. -/
structure ActiveToken where
  token : String
  tokenId : Bytes
  expiresAt : Int
  consumed : Bool
  deriving DecidableEq

/-- The single active QR token. -/
structure QRSession where
  active : Option ActiveToken
  deriving DecidableEq

/-- What comes of consuming a token. -/
inductive PairTokenStatus
  | ok
  | expired
  | consumed
  | unknown
  deriving DecidableEq

namespace QRSession

/-- A new token takes the place of the old one. -/
def issueToken (crypto : PairingCrypto) (token : String) (now ttlMs : Int) : QRSession :=
  ⟨some ⟨token, crypto.pairTokenId token, now + ttlMs, false⟩⟩

/-- No token is active. -/
def clear : QRSession := ⟨none⟩

/-- With no token the locator is compared with sixteen zeros, and no token is found. -/
def findTokenById (qr : QRSession) (tokenId : Bytes) : Option String :=
  if tokenId.length ≠ 16 then none
  else
    match qr.active with
    | none => none
    | some active => if tokenId = active.tokenId then some active.token else none

/-- A token is consumed once, and not after it has expired. -/
def consumeToken (qr : QRSession) (token : String) (now : Int) : PairTokenStatus × QRSession :=
  match qr.active with
  | none => (.unknown, qr)
  | some active =>
    if active.token ≠ token then (.unknown, qr)
    else if active.consumed then (.consumed, qr)
    else if active.expiresAt < now then (.expired, qr)
    else (.ok, ⟨some { active with consumed := true }⟩)

end QRSession

/-! ## Requests and replies -/

/-- A `pair_request`. A proof field is absent when it is missing or not a string. -/
structure PairRequestMessage where
  id : String
  deviceName : String
  tokenId : Option String
  pairMac : Option String
  dhPk : Option String
  dhSig : Option String
  deriving DecidableEq

/-- The codes of the errors that a request is answered with. -/
inductive PairErrorCode
  | tokenUnknown
  | tokenExpired
  | tokenConsumed
  | badDhSig
  | internalError
  deriving DecidableEq

/-- An error reply. -/
structure PairError where
  inReplyTo : String
  code : PairErrorCode
  message : String
  deriving DecidableEq

/-- The session that a successful pairing reports. -/
structure PairingSessionSnapshot where
  sessionName : String
  sessionStartedAt : Int
  sessionId : String
  roomId : String
  harness : Option String
  hostname : Option String
  deriving DecidableEq

/-- The reply to a request. -/
inductive PairReply
  | error (error : PairError)
  | ok (inReplyTo : String) (session : PairingSessionSnapshot) (dhPk dhSig : String)
  deriving DecidableEq

/-- What a key exchange with the app's share produces. -/
structure PairExchange where
  channelKey : String
  piDhPk : Bytes
  piDhSig : Bytes
  deriving DecidableEq

/-- The octets of a proof field of that width. -/
def decodeCanonicalBase64 (value : Option String) (bytes : Nat) : Option Bytes :=
  value.bind fun text => Base64.decodeCanonical text bytes

/-- The token for which a MAC is checked where none is found, so that the check takes the same
time. -/
def unknownPairTokenDummy : String := "AAAAAAAAAAAAAAAAAAAAAA"
/-- The key that stands for one that cannot be read. -/
def invalidPairKeyDummy : Bytes := List.replicate 32 0

/-- The reply to a request whose MAC does not verify, or is not there. -/
def missingProof (id : String) : PairError :=
  ⟨id, .tokenUnknown, "Pairing token proof is missing or invalid."⟩

/-- The reply to a request whose signature does not verify, or is not there. -/
def missingSignature (id : String) : PairError :=
  ⟨id, .badDhSig, "Invalid or missing owner channel key signature."⟩

/-- The reply to a request with both proofs whose token cannot be consumed. -/
def pairErrorForStatus (id : String) : PairTokenStatus → PairError
  | .expired => ⟨id, .tokenExpired,
      "Ephemeral token expired. Generate a new QR with /outpost-pi pair."⟩
  | .consumed => ⟨id, .tokenConsumed, "Token already consumed by another pair_request."⟩
  | _ => ⟨id, .tokenUnknown, "Token was not issued by this Pi."⟩

/-- Everything that one request meets besides the QR session: the peer that the relay
authenticated, the Pi's public key, the time, and the result of the key exchange, which can
throw. -/
structure PairFrame where
  peerId : String
  inner : PairRequestMessage
  identity : Option Bytes
  now : Int
  pairedAt : String
  exchange : Option PairExchange
  deriving DecidableEq

/-- Where the handling of a request stops for the first time: at an error reply, or at the
call of `addPeer`. -/
inductive PairStop
  | failed (error : PairError)
  | addPeer (token : String) (record : PeerRecord) (exchange : PairExchange)
  deriving DecidableEq

/-- The handling of a request up to its first `await`. -/
def handlePairRequest (crypto : PairingCrypto) (qr : QRSession) (frame : PairFrame) :
    PairStop × QRSession :=
  let inner := frame.inner
  match decodeCanonicalBase64 inner.tokenId 16, decodeCanonicalBase64 inner.pairMac 32 with
  | some tokenId, some pairMac =>
    match frame.identity with
    | none => (.failed (missingSignature inner.id), qr)
    | some publicKey =>
      let ownerEdPk := decodeCanonicalBase64 (some frame.peerId) 32
      let appDhPk := decodeCanonicalBase64 inner.dhPk 32
      let token := qr.findTokenById tokenId
      let proofValid := crypto.verifyPairMac (token.getD unknownPairTokenDummy) tokenId
        (ownerEdPk.getD invalidPairKeyDummy) (appDhPk.getD invalidPairKeyDummy) publicKey pairMac
      match token, ownerEdPk, appDhPk, proofValid with
      | some token, some ownerEdPk, some appDhPk, true =>
        match decodeCanonicalBase64 inner.dhSig 64 with
        | none => (.failed (missingSignature inner.id), qr)
        | some appDhSig =>
          if crypto.ed25519Verify ownerEdPk (appTranscript token appDhPk publicKey) appDhSig =
              some true then
            let consumption := qr.consumeToken token frame.now
            if consumption.1 = .ok then
              match frame.exchange with
              | none =>
                (.failed ⟨inner.id, .internalError, "Pairing could not be completed."⟩,
                  consumption.2)
              | some exchange =>
                (.addPeer token
                  ⟨inner.deviceName, frame.peerId, frame.pairedAt, some exchange.channelKey,
                    some "0", some "0"⟩ exchange, consumption.2)
            else (.failed (pairErrorForStatus inner.id consumption.1), consumption.2)
          else (.failed (missingSignature inner.id), qr)
      | _, _, _, _ => (.failed (missingProof inner.id), qr)
  | _, _ => (.failed (missingProof inner.id), qr)

/-! ## Runs -/

/-- One call of `addPeer`: the number of the issue whose token was consumed, the token, and the
request. -/
structure AddedPeer where
  issue : Nat
  token : String
  frame : PairFrame
  record : PeerRecord
  deriving DecidableEq

/-- The QR session, the tokens issued so far, the calls of `addPeer`, the exchanges whose call
has not returned, and the replies. -/
structure PairingWorld where
  qr : QRSession
  issued : List String
  added : List AddedPeer
  persisting : List (PairFrame × PairExchange)
  replies : List (String × PairReply)

/-- What the user, the peers and the store do. -/
inductive PairingAction
  | issueToken (token : String) (now ttlMs : Int)
  | clear
  | pairRequest (frame : PairFrame)
  | persisted (index : Nat) (succeeds current : Bool) (session : PairingSessionSnapshot)

namespace PairingWorld

/-- Handle a request up to its first `await`. -/
def pairRequest (crypto : PairingCrypto) (w : PairingWorld) (frame : PairFrame) : PairingWorld :=
  match handlePairRequest crypto w.qr frame with
  | (.failed error, qr) =>
    { w with qr := qr, replies := w.replies ++ [(frame.peerId, .error error)] }
  | (.addPeer token record exchange, qr) =>
    { w with
      qr := qr
      added := w.added ++ [⟨w.issued.length, token, frame, record⟩]
      persisting := w.persisting ++ [(frame, exchange)] }

/-- Resume a request when its `addPeer` returns. -/
def persisted (w : PairingWorld) (index : Nat) (succeeds current : Bool)
    (session : PairingSessionSnapshot) : Option PairingWorld :=
  (w.persisting[index]?).map fun pending =>
    let frame := pending.1
    let exchange := pending.2
    let reply : PairReply :=
      if succeeds then
        .ok frame.inner.id session (Base64.encode exchange.piDhPk) (Base64.encode exchange.piDhSig)
      else .error ⟨frame.inner.id, .internalError, "Pairing could not be completed."⟩
    { w with
      persisting := w.persisting.eraseIdx index
      replies := if current then w.replies ++ [(frame.peerId, reply)] else w.replies }

end PairingWorld

/-- Issues, clears and requests in any order. -/
def pairingMachine (crypto : PairingCrypto) : Machine PairingWorld PairingAction where
  Init w := w = ⟨.clear, [], [], [], []⟩
  step w
    | .issueToken token now ttlMs =>
      some { w with qr := .issueToken crypto token now ttlMs, issued := w.issued ++ [token] }
    | .clear => some { w with qr := .clear }
    | .pairRequest frame => some (w.pairRequest crypto frame)
    | .persisted index succeeds current session => w.persisted index succeeds current session

/-! ## What a request proves -/

/-- The request's MAC is that of the token over the locator it names, the key of the peer that
the relay authenticated, its key share and the Pi's key. -/
def MacVerifies (crypto : PairingCrypto) (token : String) (frame : PairFrame) : Prop :=
  ∃ tokenId pairMac publicKey ownerEdPk appDhPk message,
    decodeCanonicalBase64 frame.inner.tokenId 16 = some tokenId ∧
    decodeCanonicalBase64 frame.inner.pairMac 32 = some pairMac ∧
    frame.identity = some publicKey ∧
    decodeCanonicalBase64 (some frame.peerId) 32 = some ownerEdPk ∧
    decodeCanonicalBase64 frame.inner.dhPk 32 = some appDhPk ∧
    pairMacMessage tokenId ownerEdPk appDhPk publicKey = some message ∧
    crypto.hmacSha256 (utf8 token) message = pairMac

/-- The request's signature is that of the same peer over the token, its key share and the Pi's
key. -/
def SignatureVerifies (crypto : PairingCrypto) (token : String) (frame : PairFrame) : Prop :=
  ∃ publicKey ownerEdPk appDhPk appDhSig,
    frame.identity = some publicKey ∧
    decodeCanonicalBase64 (some frame.peerId) 32 = some ownerEdPk ∧
    decodeCanonicalBase64 frame.inner.dhPk 32 = some appDhPk ∧
    decodeCanonicalBase64 frame.inner.dhSig 64 = some appDhSig ∧
    crypto.ed25519Verify ownerEdPk (appTranscript token appDhPk publicKey) appDhSig = some true

variable {crypto : PairingCrypto} {qr : QRSession} {frame : PairFrame}

variable {token : String}

theorem verifyPairMac_eq_true {tokenId ownerEdPk appDhPk piEdPk candidate : Bytes} :
    crypto.verifyPairMac token tokenId ownerEdPk appDhPk piEdPk candidate = true →
      ∃ message, pairMacMessage tokenId ownerEdPk appDhPk piEdPk = some message ∧
        crypto.hmacSha256 (utf8 token) message = candidate := by
  intro verified
  rw [PairingCrypto.verifyPairMac] at verified
  split at verified
  · cases verified
  · split at verified
    · cases verified
    · next expected computed =>
      obtain ⟨message, built, rfl⟩ := Option.map_eq_some_iff.mp computed
      exact ⟨message, built, eq_of_beq verified⟩

theorem findTokenById_some {tokenId : Bytes} (found : qr.findTokenById tokenId = some token) :
    ∃ active, qr.active = some active ∧ active.token = token := by
  rw [QRSession.findTokenById] at found
  split at found
  · cases found
  · split at found
    · cases found
    · next active is =>
      split at found
      · exact ⟨active, is, Option.some.inj found⟩
      · cases found

theorem consumeToken_ok {now : Int} (ok : (qr.consumeToken token now).1 = .ok) :
    ∃ active, qr.active = some active ∧ active.token = token ∧ active.consumed = false ∧
      now ≤ active.expiresAt ∧
      (qr.consumeToken token now).2 = ⟨some { active with consumed := true }⟩ := by
  rw [QRSession.consumeToken] at ok ⊢
  cases is : qr.active with
  | none => simp [is] at ok
  | some active =>
    simp only [is] at ok ⊢
    split at ok
    · cases ok
    · split at ok
      · cases ok
      · split at ok
        · cases ok
        · next named unconsumed unexpired =>
          refine ⟨active, rfl, not_not.mp named, by simpa using unconsumed, not_lt.mp unexpired, ?_⟩
          rw [if_neg named, if_neg unconsumed, if_neg unexpired]

theorem consumeToken_failed {now : Int} (failed : (qr.consumeToken token now).1 ≠ .ok) :
    (qr.consumeToken token now).2 = qr := by
  rw [QRSession.consumeToken] at failed ⊢
  cases is : qr.active with
  | none => rfl
  | some active =>
    simp only [is] at failed ⊢
    split
    · rfl
    · next named =>
      rw [if_neg named] at failed
      split
      · rfl
      · next unconsumed =>
        rw [if_neg unconsumed] at failed
        split
        · rfl
        · next unexpired =>
          rw [if_neg unexpired] at failed
          exact absurd rfl failed

/-- What a request leaves behind: nothing but an error, or a token that was consumed by a
request with both proofs. -/
theorem handlePairRequest_cases (crypto : PairingCrypto) (qr : QRSession) (frame : PairFrame) :
    (∃ error, handlePairRequest crypto qr frame = (.failed error, qr)) ∨
    ∃ active, qr.active = some active ∧ active.consumed = false ∧
      MacVerifies crypto active.token frame ∧ SignatureVerifies crypto active.token frame ∧
      (handlePairRequest crypto qr frame).2 = ⟨some { active with consumed := true }⟩ ∧
      ((∃ error, (handlePairRequest crypto qr frame).1 = .failed error) ∨
        ∃ record exchange,
          (handlePairRequest crypto qr frame).1 = .addPeer active.token record exchange) := by
  rw [handlePairRequest]
  dsimp only
  split
  · next tokenId pairMac locator mac =>
    split
    · exact .inl ⟨_, rfl⟩
    · next publicKey identity =>
      split
      · next token ownerEdPk appDhPk found owner share proof =>
        split
        · exact .inl ⟨_, rfl⟩
        · next appDhSig signature =>
          split
          · next signed =>
            split
            · next ok =>
              obtain ⟨active, is, rfl, unconsumed, -, consumed⟩ := consumeToken_ok ok
              simp only [found, owner, share, Option.getD_some] at proof
              obtain ⟨message, built, authentic⟩ := verifyPairMac_eq_true proof
              refine .inr ⟨active, is, unconsumed,
                ⟨tokenId, pairMac, publicKey, ownerEdPk, appDhPk, message, locator, mac, identity,
                  owner, share, built, authentic⟩,
                ⟨publicKey, ownerEdPk, appDhPk, appDhSig, identity, owner, share, signature,
                  signed⟩, ?_⟩
              split
              · exact ⟨consumed, .inl ⟨_, rfl⟩⟩
              · exact ⟨consumed, .inr ⟨_, _, rfl⟩⟩
            · next failed =>
              rw [consumeToken_failed failed]
              exact .inl ⟨_, rfl⟩
          · exact .inl ⟨_, rfl⟩
      · exact .inl ⟨_, rfl⟩
  · exact .inl ⟨_, rfl⟩

/-- The error reply to a request without a valid MAC. -/
def unprovedError (frame : PairFrame) : PairError :=
  match decodeCanonicalBase64 frame.inner.tokenId 16,
      decodeCanonicalBase64 frame.inner.pairMac 32, frame.identity with
  | some _, some _, none => missingSignature frame.inner.id
  | _, _, _ => missingProof frame.inner.id

/-- A request without a valid MAC is answered by what it says alone. -/
theorem handlePairRequest_unproved
    (unproved : ∀ active, qr.active = some active → ¬ MacVerifies crypto active.token frame) :
    handlePairRequest crypto qr frame = (.failed (unprovedError frame), qr) := by
  rw [handlePairRequest, unprovedError]
  dsimp only
  cases locator : decodeCanonicalBase64 frame.inner.tokenId 16 with
  | none => rfl
  | some tokenId =>
    cases mac : decodeCanonicalBase64 frame.inner.pairMac 32 with
    | none => rfl
    | some pairMac =>
      cases identity : frame.identity with
      | none => rfl
      | some publicKey =>
        dsimp only
        split
        · next token ownerEdPk appDhPk found owner share proof =>
          obtain ⟨active, is, rfl⟩ := findTokenById_some found
          simp only [found, owner, share, Option.getD_some] at proof
          obtain ⟨message, built, authentic⟩ := verifyPairMac_eq_true proof
          exact absurd ⟨tokenId, pairMac, publicKey, ownerEdPk, appDhPk, message, locator, mac,
            identity, owner, share, built, authentic⟩ (unproved active is)
        · rfl

/-! ## Runs -/

/-- What holds in every run: the active token is the last one issued, the calls of `addPeer`
belong to different issues and are proved, and the token of an issue with a call is consumed. -/
structure PairingInvariant (crypto : PairingCrypto) (w : PairingWorld) : Prop where
  latest : ∀ active, w.qr.active = some active → w.issued.getLast? = some active.token
  spent : ∀ call ∈ w.added, call.issue = w.issued.length →
    ∀ active, w.qr.active = some active → active.consumed = true
  issued : ∀ call ∈ w.added, 0 < call.issue ∧ w.issued[call.issue - 1]? = some call.token
  once : (w.added.map AddedPeer.issue).Nodup
  proved : ∀ call ∈ w.added,
    MacVerifies crypto call.token call.frame ∧ SignatureVerifies crypto call.token call.frame

namespace PairingInvariant

variable {w w' : PairingWorld}

/-- A call belongs to an issue that has happened. -/
theorem le_issued (inv : PairingInvariant crypto w) {call : AddedPeer} (mem : call ∈ w.added) :
    call.issue ≤ w.issued.length := by
  obtain ⟨positive, found⟩ := inv.issued call mem
  have bound := (List.getElem?_eq_some_iff.mp found).1
  omega

theorem issue (inv : PairingInvariant crypto w) (token : String) (now ttlMs : Int) :
    PairingInvariant crypto
      { w with qr := .issueToken crypto token now ttlMs, issued := w.issued ++ [token] } where
  latest active is := by
    cases is
    simp
  spent call mem last := by
    -- No call belongs to the new issue.
    have bound := inv.le_issued mem
    rw [List.length_append, List.length_singleton] at last
    omega
  issued call mem := by
    obtain ⟨positive, found⟩ := inv.issued call mem
    have bound := (List.getElem?_eq_some_iff.mp found).1
    exact ⟨positive, by rw [List.getElem?_append_left bound]; exact found⟩
  once := inv.once
  proved := inv.proved

theorem clear (inv : PairingInvariant crypto w) :
    PairingInvariant crypto { w with qr := .clear } :=
  { inv with
    latest _ is := by cases is
    spent _ _ _ _ is := by cases is }

/-- Consuming the active token changes nothing else. -/
theorem consume (inv : PairingInvariant crypto w) {active : ActiveToken}
    (is : w.qr.active = some active) (replies : List (String × PairReply)) :
    PairingInvariant crypto
      { w with qr := ⟨some { active with consumed := true }⟩, replies := replies } :=
  { inv with
    latest _ is' := by
      cases is'
      exact inv.latest active is
    spent _ _ _ _ is' := by
      cases is'
      rfl }

theorem pairRequest (inv : PairingInvariant crypto w) (frame : PairFrame) :
    PairingInvariant crypto (w.pairRequest crypto frame) := by
  rw [PairingWorld.pairRequest]
  rcases handlePairRequest_cases crypto w.qr frame with
    ⟨error, unchanged⟩ | ⟨active, is, unconsumed, mac, signature, consumed, stop⟩
  · rw [unchanged]
    exact { inv with }
  · generalize handlePairRequest crypto w.qr frame = result at consumed stop
    obtain ⟨stopped, qr⟩ := result
    dsimp only at consumed stop
    rw [consumed]
    rcases stop with ⟨error, rfl⟩ | ⟨record, exchange, rfl⟩
    · exact inv.consume is _
    · have after := inv.consume is w.replies
      have last := inv.latest active is
      have nonempty : w.issued ≠ [] := by
        intro empty
        rw [empty] at last
        cases last
      -- the code is not consumed, so no pairing was added for it
      have unadded : w.issued.length ∉ w.added.map AddedPeer.issue := by
        intro mem
        obtain ⟨call, called, same⟩ := List.mem_map.mp mem
        rw [inv.spent call called same active is] at unconsumed
        cases unconsumed
      refine ⟨after.latest, ?_, ?_, ?_, ?_⟩
      · intro call mem same active' is'
        cases is'
        rfl
      · intro call mem
        rcases List.mem_append.mp mem with before | new
        · exact inv.issued call before
        · rw [List.mem_singleton.mp new]
          refine ⟨List.length_pos_iff.mpr nonempty, ?_⟩
          rw [← List.getLast?_eq_getElem?]
          exact last
      · dsimp only
        rw [List.map_append]
        exact inv.once.append (List.nodup_singleton _) (by simpa using unadded)
      · intro call mem
        rcases List.mem_append.mp mem with before | new
        · exact inv.proved call before
        · rw [List.mem_singleton.mp new]
          exact ⟨mac, signature⟩

theorem step {a : PairingAction} (inv : PairingInvariant crypto w)
    (taken : (pairingMachine crypto).step w a = some w') : PairingInvariant crypto w' := by
  cases a with
  | issueToken token now ttlMs =>
    cases taken
    exact inv.issue token now ttlMs
  | clear =>
    cases taken
    exact inv.clear
  | pairRequest frame =>
    cases taken
    exact inv.pairRequest frame
  | persisted index succeeds current session =>
    obtain ⟨pending, -, rfl⟩ := Option.map_eq_some_iff.mp taken
    exact { inv with }

theorem reachable (reached : (pairingMachine crypto).Reachable w) : PairingInvariant crypto w := by
  apply Machine.ReachableUnder.invariant (I := PairingInvariant crypto) _ _ reached
  · rintro s rfl
    exact ⟨fun _ is => (by cases is), fun _ mem => (by cases mem), fun _ mem => (by cases mem),
      List.nodup_nil, fun _ mem => (by cases mem)⟩
  · intro s a s' inv _ taken
    exact inv.step taken

end PairingInvariant

/-- The pairing gate. In every run `addPeer` is called at most once for each issue of a token,
for a request whose MAC and signature verify under the token of that issue. A request whose MAC
does not verify leaves the QR session unchanged, and any two QR sessions under which it does
not verify give it the same error reply, whether they hold no token, a fresh one, an expired
one or a consumed one. -/
theorem pairing_proof_gate (crypto : PairingCrypto) :
    (∀ w, (pairingMachine crypto).Reachable w →
      (w.added.map AddedPeer.issue).Nodup ∧
      ∀ call ∈ w.added, w.issued[call.issue - 1]? = some call.token ∧
        MacVerifies crypto call.token call.frame ∧
        SignatureVerifies crypto call.token call.frame) ∧
    (∀ (qr : QRSession) (frame : PairFrame),
      (∀ active, qr.active = some active → ¬ MacVerifies crypto active.token frame) →
      (handlePairRequest crypto qr frame).2 = qr) ∧
    (∀ (qr qr' : QRSession) (frame : PairFrame) (now' : Int),
      (∀ active, qr.active = some active → ¬ MacVerifies crypto active.token frame) →
      (∀ active, qr'.active = some active → ¬ MacVerifies crypto active.token frame) →
      ∃ error, (handlePairRequest crypto qr frame).1 = .failed error ∧
        (handlePairRequest crypto qr' { frame with now := now' }).1 = .failed error) := by
  refine ⟨fun w reached => ?_, fun qr frame unproved => ?_,
    fun qr qr' frame now' unproved unproved' => ?_⟩
  · have inv := PairingInvariant.reachable reached
    exact ⟨inv.once, fun call mem => ⟨(inv.issued call mem).2, inv.proved call mem⟩⟩
  · rw [handlePairRequest_unproved unproved]
  · have later : ∀ active, qr'.active = some active →
        ¬ MacVerifies crypto active.token { frame with now := now' } := unproved'
    refine ⟨unprovedError frame, ?_, ?_⟩
    · rw [handlePairRequest_unproved unproved]
    · rw [handlePairRequest_unproved later]
      rfl

/-! ## One pairing -/

/-- The token of a QR code. -/
def qrToken : String := "AAECAwQFBgcICQoLDA0ODw"

/-- A request that proves that it knows the token. -/
def provedFrame : PairFrame where
  peerId := "iojj3XQJ8ZX9UtstPLpdcspnCb8dlBIb83SIAbQPb1w="
  inner :=
    { id := "r1"
      deviceName := "phone"
      tokenId := some "XSYR1aTdK0Cyd9/bXs9bSQ=="
      pairMac := some "NXOW6o5F4AO7h7kULc9kg2H+Q0gkCcc6dJVLYRHHGJY="
      dhPk := some "7UkoxijRwsbq6QM4kFmVYSlZJzpcY/k2NsFGFKyHN9E="
      dhSig := some ("rB8QmBxOil0TSXugzfpjv2LYi/XlpiQdQtwz+xahoAj2cCuIIOfBgMpXM2/LTWvzh/JVP9ZX" ++
        "/sP1F2Qf66jWBQ==") }
  identity := some (Base64.decode "gTl3Dqh9F19Wo1Rmw0x+zMuNipG07jeiXfYPW4/Js5Q=")
  now := 1000
  pairedAt := "2026-01-01T00:00:00Z"
  exchange := some ⟨"channel", [1], [2]⟩

/-- What the primitives make of this request. -/
def recordedCrypto : PairingCrypto where
  sha256 bytes :=
    if bytes = utf8 qrToken then Base64.decode "XSYR1aTdK0Cyd9/bXs9bSYGRUNfVxi9O75YMsMJNsgw="
    else []
  hmacSha256 key message :=
    if key = utf8 qrToken ∧ message = utf8 (ownerChannelSuite ++ "\npair\n") ++
        Base64.decode (provedFrame.inner.tokenId.getD "") ++ Base64.decode provedFrame.peerId ++
        Base64.decode (provedFrame.inner.dhPk.getD "") ++ provedFrame.identity.getD [] then
      Base64.decode (provedFrame.inner.pairMac.getD "")
    else []
  ed25519Verify key message signature :=
    some (decide (key = Base64.decode provedFrame.peerId ∧
      signature = Base64.decode (provedFrame.inner.dhSig.getD "") ∧
      message = appTranscript qrToken (Base64.decode (provedFrame.inner.dhPk.getD ""))
        (provedFrame.identity.getD [])))

/-- The request comes with a wrong MAC first, then as it should, and then once more. -/
def pairingRun : List PairingAction :=
  [.issueToken qrToken 0 60000,
    .pairRequest
      { provedFrame with inner := { provedFrame.inner with pairMac := provedFrame.inner.dhPk } },
    .pairRequest provedFrame, .pairRequest provedFrame]

/-- The peer is added for the second of the requests, and the other two are refused. -/
theorem pairing_proof_gate_paired :
    ∃ w, (pairingMachine recordedCrypto).Reachable w ∧ w.added.map AddedPeer.token = [qrToken] ∧
      w.replies.map Prod.snd = [.error (missingProof "r1"),
        .error (pairErrorForStatus "r1" .consumed)] ∧
      ∀ call ∈ w.added, MacVerifies recordedCrypto call.token call.frame ∧
        SignatureVerifies recordedCrypto call.token call.frame := by
  have ran : ((pairingMachine recordedCrypto).exec ⟨.clear, [], [], [], []⟩ pairingRun).any
      (fun w => decide (w.added.map AddedPeer.token = [qrToken] ∧ w.replies.map Prod.snd =
        [.error (missingProof "r1"), .error (pairErrorForStatus "r1" .consumed)])) = true := by
    decide +kernel
  obtain ⟨w, executed, facts⟩ := (Option.any_eq_true _ _).mp ran
  obtain ⟨added, replies⟩ := of_decide_eq_true facts
  have reached := Machine.reachable_of_exec (M := pairingMachine recordedCrypto) rfl executed
  refine ⟨w, reached, added, replies, fun call mem => ?_⟩
  exact (((pairing_proof_gate recordedCrypto).1 w reached).2 call mem).2

end OutpostPi.Pi
