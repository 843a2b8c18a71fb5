import Mathlib.Data.List.Induction
import OutpostPi.Pi.OwnerChannel

/-!
# One high-water for several processes

The receive high-water of an Owner is shared by all Pi processes of the machine, while every
process receives its own part of the frames. `sharedMachine` interleaves the `openAndRoute`
steps of any number of processes over genuine frames with increasing sequences, each addressed
to one process and delivered once and in order.

A frame is accepted exactly when it is above everything compared before it
(`outcome_of_compared`), so nothing is lost exactly as long as the comparisons are taken in
sending order (`kept_iff_in_order`).
-/

set_option autoImplicit false

namespace OutpostPi.Pi

open OutpostPi.Lib

/-! ## The shared record -/

/-- The file can be read and its record of the peer has the channel key and the high-water. -/
def Stored (file : PeersFile) (remoteEpk key : String) (high : Nat) : Prop :=
  ∃ peers index peer, readPeersFile file false = .array peers ∧
    findPeer remoteEpk peers = .ok (some (index, peer)) ∧ hasKey key peer = true ∧
    parsePeerChannelSequence (peer.field "recv_seq") = some high

/-- The updated record of a peer is found where the old one was. -/
theorem findPeer_set {remoteEpk : String} {peers : List Json} {index : Nat} {peer new : Json}
    (found : findPeer remoteEpk peers = .ok (some (index, peer)))
    (own : isPeer remoteEpk new = true) :
    findPeer remoteEpk (peers.set index new) = .ok (some (index, new)) := by
  induction peers generalizing index with
  | nil => cases found
  | cons head peers ih =>
    rw [findPeer.eq_def] at found
    split at found
    · next eq => cases eq
    · cases found
    · next notNull eq =>
      cases eq
      split at found
      · cases found
        have some' : ∃ fields, new = .object fields :=
          Json.object_of_field (Json.hasString_iff.mp own)
        obtain ⟨fields, rfl⟩ := some'
        rw [List.set_cons_zero, findPeer, if_pos own]
        simp
      · next other =>
        split at found
        · cases found
        · next later eq =>
          cases later with
          | none => cases found
          | some place =>
            cases found
            rw [List.set_cons_succ, findPeer, if_neg other, ih eq]
            · rfl
            · exact notNull

variable {file : PeersFile} {remoteEpk key : String} {high seq : Nat}

theorem compare_replay (stored : Stored file remoteEpk key high) (fits : seq ≤ maxUint64)
    (old : seq ≤ high) :
    compareAndAdvanceRecvSeq file .none remoteEpk key seq = (.ok .replay, file) := by
  obtain ⟨peers, index, peer, read, found, own, parsed⟩ := stored
  have notNegative : ¬(seq : Int) < 0 := by omega
  have notLarge : ¬maxUint64 < seq := by omega
  rw [hasKey] at own
  simp [compareAndAdvanceRecvSeq, mutatePeers, PeerFaults.none, read, found, own, parsed,
    notNegative, notLarge, old, PeerFaults.released]

theorem compare_accepted (stored : Stored file remoteEpk key high) (fits : seq ≤ maxUint64)
    (newer : high < seq) :
    (compareAndAdvanceRecvSeq file .none remoteEpk key seq).1 = .ok .accepted ∧
      Stored (compareAndAdvanceRecvSeq file .none remoteEpk key seq).2 remoteEpk key seq := by
  obtain ⟨peers, index, peer, read, found, own, parsed⟩ := stored
  have notNegative : ¬(seq : Int) < 0 := by omega
  have notLarge : ¬maxUint64 < seq := by omega
  have above : ¬seq ≤ high := by omega
  have peerOwn := (findPeer_some found).2
  have advanced : compareAndAdvanceRecvSeq file .none remoteEpk key seq =
      (.ok .accepted, .document (.object [("peers", .array (peers.set index
        (peer.setField "recv_seq" (.string (toDecimal seq)))))])) := by
    have own' : peer.hasString "channel_key" key = true := own
    simp [compareAndAdvanceRecvSeq, mutatePeers, PeerFaults.none, read, found, own', parsed,
      notNegative, notLarge, above, PeerFaults.released]
  rw [advanced]
  refine ⟨rfl, _, index, _, rfl, findPeer_set found ?_, ?_, ?_⟩
  · rw [isPeer, Json.hasString, Json.field_setField_of_ne (by decide)]
    exact peerOwn
  · rw [hasKey_setField (by decide)]
    exact own
  · rw [field_setField_of_hasKey own]
    exact parse_toDecimal fits

/-! ## Interleaved processes -/

/-- The frame in which the app sent a message. -/
def frameOf (box : SealedBox) : Frame := ⟨frameVersion, box.seq, .sealed box⟩

/-- One comparison: the process, the message and the result. -/
structure Comparison (ι : Type) where
  process : ι
  box : SealedBox
  outcome : Except PeerError RecvSeqAdvanceResult

/-- The processes with the frames still to come to each, every comparison so far, and what each
process has dispatched. -/
structure SharedRun (ι : Type) where
  file : PeersFile
  channels : ι → Channel
  remaining : ι → List SealedBox
  comparisons : List (Comparison ι)
  dispatched : ι → List SealedBox

/-- The steps of `openAndRoute`: up to the comparison, the comparison, and from its result on. -/
inductive SharedAction (ι : Type)
  | take (process : ι)
  | compare (process : ι)
  | resume (process : ι)

variable {ι : Type} [DecidableEq ι]

/-- The frames addressed to one process, in sending order. -/
def addressed (frames : List (ι × SealedBox)) (process : ι) : List SealedBox :=
  (frames.filter fun frame => frame.1 = process).map Prod.snd

namespace SharedRun

variable (decodes : String → Bool) (s : SharedRun ι) (process : ι)

def take : Option (SharedRun ι) :=
  let ch := s.channels process
  match s.remaining process, ch.drain with
  | _, .comparing _ => none
  | _, .compared _ _ => none
  | [], _ => none
  | box :: rest, _ =>
    if ch.detached then none
    else
      some { s with
        channels := Function.update s.channels process (ch.openAndRoute decodes (frameOf box))
        remaining := Function.update s.remaining process rest }

def compare : Option (SharedRun ι) :=
  let ch := s.channels process
  match ch.drain with
  | .comparing box =>
    let result := compareAndAdvanceRecvSeq s.file .none ch.remotePeerId ch.channelKey box.seq
    some { s with
      file := result.2
      channels := Function.update s.channels process { ch with drain := .compared box result.1 }
      comparisons := s.comparisons ++ [⟨process, box, result.1⟩] }
  | _ => none

def resume : Option (SharedRun ι) :=
  let ch := s.channels process
  match ch.drain with
  | .compared box outcome =>
    let resumed := ch.resume box outcome
    some { s with
      channels := Function.update s.channels process resumed.1
      dispatched :=
        if resumed.2 then Function.update s.dispatched process (s.dispatched process ++ [box])
        else s.dispatched }
  | _ => none

end SharedRun

/-- Frames of one channel with increasing sequences, all new to the Pi, that decode. -/
structure GenuineFrames (decodes : String → Bool) (key : String) (high : Nat)
    (frames : List (ι × SealedBox)) : Prop where
  increasing : (frames.map fun frame => frame.2.seq).Pairwise (· < ·)
  key : ∀ frame ∈ frames, frame.2.channelKey = key
  direction : ∀ frame ∈ frames, frame.2.direction = .appToPi
  fits : ∀ frame ∈ frames, frame.2.seq ≤ maxUint64
  fresh : ∀ frame ∈ frames, high < frame.2.seq
  decodes : ∀ frame ∈ frames, decodes frame.2.json = true

/-- Any number of processes that serve one Owner under one channel key. -/
def sharedMachine (decodes : String → Bool) (remoteEpk key : String)
    (frames : List (ι × SealedBox)) : Machine (SharedRun ι) (SharedAction ι) where
  Init s := ∃ high, GenuineFrames decodes key high frames ∧ Stored s.file remoteEpk key high ∧
    (∀ process, (s.channels process).remotePeerId = remoteEpk ∧
      (s.channels process).channelKey = key ∧ (s.channels process).detached = false ∧
      (s.channels process).recvSeq ≤ high ∧ (s.channels process).drain = .idle) ∧
    s.remaining = addressed frames ∧ s.comparisons = [] ∧ s.dispatched = fun _ => []
  step s
    | .take process => s.take decodes process
    | .compare process => s.compare process
    | .resume process => s.resume process

/-! ## One process -/

/-- The comparison succeeded. -/
def isAccepted (outcome : Except PeerError RecvSeqAdvanceResult) : Bool :=
  match outcome with
  | .ok .accepted => true
  | _ => false

namespace Channel

/-- The opened frame that awaits its comparison. -/
def comparing (ch : Channel) : List SealedBox :=
  match ch.drain with
  | .comparing box => [box]
  | _ => []

/-- The accepted frame that awaits its dispatch. -/
def dispatching (ch : Channel) : List SealedBox :=
  match ch.drain with
  | .compared box outcome => if isAccepted outcome then [box] else []
  | _ => []

/-- The frame in the hands of the channel, unless it was found replayed. -/
def inHand (ch : Channel) : List SealedBox := ch.dispatching ++ ch.comparing

variable {ch : Channel} {box : SealedBox}

/-- A new genuine frame opens. -/
theorem openAndRoute_genuine {decodes : String → Bool} (attached : ch.detached = false)
    (key : box.channelKey = ch.channelKey) (direction : box.direction = .appToPi)
    (newer : ch.recvSeq < box.seq) (decoded : decodes box.json = true) :
    ch.openAndRoute decodes (frameOf box) = { ch with drain := .comparing box } := by
  have opens : openFrame ch.channelKey (frameOf box) ch.recvSeq = some box := by
    simp [openFrame, frameOf, key, direction, newer]
  rw [openAndRoute, opens]
  simp [attached, decoded]

/-- Counting a failure changes neither the work nor the high-water. -/
theorem openFailed_fields (ch : Channel) : ch.openFailed.drain = ch.drain ∧
    ch.openFailed.channelKey = ch.channelKey ∧ ch.openFailed.remotePeerId = ch.remotePeerId ∧
    ch.openFailed.recvSeq = ch.recvSeq := by
  simp only [openFailed, disconnect, detach]
  split
  · split
    · exact ⟨rfl, rfl, rfl, rfl⟩
    · split <;> exact ⟨rfl, rfl, rfl, rfl⟩
  · exact ⟨rfl, rfl, rfl, rfl⟩

end Channel

/-- One process: its channel, the frames still to come, its own comparisons and what it has
dispatched, against the frames addressed to it. -/
structure Lane (remoteEpk key : String) (sent : List SealedBox) (ch : Channel)
    (remaining : List SealedBox)
    (own : List (SealedBox × Except PeerError RecvSeqAdvanceResult))
    (dispatched : List SealedBox) : Prop where
  peer : ch.remotePeerId = remoteEpk
  key : ch.channelKey = key
  order : own.map Prod.fst ++ ch.comparing ++ remaining = sent
  behind : ∀ box ∈ ch.comparing ++ remaining, ch.recvSeq < box.seq
  accepted : dispatched ++ ch.dispatching = (own.filter fun c => isAccepted c.2).map Prod.fst
  attached : ch.detached = true → ch.drain = .idle ∨ ch.drain = .next
  known : ∀ box outcome, ch.drain = .compared box outcome → (box, outcome) ∈ own
  lost : ch.detached = true → ∃ c ∈ own, c.2 = .ok .replay

namespace Lane

variable {sent remaining rest dispatched : List SealedBox} {ch : Channel} {box : SealedBox}
  {own : List (SealedBox × Except PeerError RecvSeqAdvanceResult)}

theorem comparing_of_drain (drain : ch.drain = .idle ∨ ch.drain = .next) :
    ch.comparing = [] ∧ ch.dispatching = [] := by
  rcases drain with idle | next
  · simp [Channel.comparing, Channel.dispatching, idle]
  · simp [Channel.comparing, Channel.dispatching, next]

theorem take (lane : Lane remoteEpk key sent ch (box :: rest) own dispatched)
    (drain : ch.drain = .idle ∨ ch.drain = .next) (attached : ch.detached = false) :
    Lane remoteEpk key sent { ch with drain := .comparing box } rest own dispatched := by
  obtain ⟨comparing, dispatching⟩ := comparing_of_drain drain
  have order := lane.order
  have behind := lane.behind
  have accepted := lane.accepted
  rw [comparing] at order behind
  rw [dispatching] at accepted
  constructor
  · exact lane.peer
  · exact lane.key
  · simpa [Channel.comparing] using order
  · simpa [Channel.comparing] using behind
  · simpa [Channel.dispatching] using accepted
  · intro detached
    rw [attached] at detached
    cases detached
  · intro other outcome impossible
    cases impossible
  · exact lane.lost

theorem compare {outcome : Except PeerError RecvSeqAdvanceResult}
    (lane : Lane remoteEpk key sent ch remaining own dispatched)
    (drain : ch.drain = .comparing box) :
    Lane remoteEpk key sent { ch with drain := .compared box outcome } remaining
      (own ++ [(box, outcome)]) dispatched := by
  have order := lane.order
  have behind := lane.behind
  have accepted := lane.accepted
  simp only [Channel.comparing, Channel.dispatching, drain] at order behind accepted
  constructor
  · exact lane.peer
  · exact lane.key
  · simpa [Channel.comparing] using order
  · intro other mem
    exact behind other (List.mem_append_right _ (by simpa [Channel.comparing] using mem))
  · rw [List.append_nil] at accepted
    rw [List.filter_append, List.map_append, ← accepted]
    cases ok : isAccepted outcome <;> simp [Channel.dispatching, ok]
  · intro detached
    rcases lane.attached detached with idle | next
    · rw [drain] at idle
      cases idle
    · rw [drain] at next
      cases next
  · intro other outcome' is
    cases is
    simp
  · intro detached
    obtain ⟨c, mem, replay⟩ := lane.lost detached
    exact ⟨c, List.mem_append_left _ mem, replay⟩

/-- An accepted frame is dispatched, and it is behind everything still to come. -/
theorem resume_accepted (increasing : sent.Pairwise fun a b => a.seq < b.seq)
    (lane : Lane remoteEpk key sent ch remaining own dispatched)
    (drain : ch.drain = .compared box (.ok .accepted)) :
    (ch.resume box (.ok .accepted)).2 = true ∧
      Lane remoteEpk key sent (ch.resume box (.ok .accepted)).1 remaining own
        (dispatched ++ [box]) := by
  have attached : ch.detached = false := by
    rw [← Bool.not_eq_true]
    intro detached
    rcases lane.attached detached with idle | next
    · rw [drain] at idle
      cases idle
    · rw [drain] at next
      cases next
  have resumed : ch.resume box (.ok .accepted) =
      ({ ch with drain := .next, recvSeq := box.seq, consecutiveOpenFailures := 0 }, true) := by
    simp [Channel.resume, attached]
  rw [resumed]
  refine ⟨rfl, ?_⟩
  have order := lane.order
  have accepted := lane.accepted
  simp only [Channel.comparing, Channel.dispatching, drain] at order accepted
  constructor
  · exact lane.peer
  · exact lane.key
  · exact order
  · intro other mem
    rw [← order, List.append_nil, List.pairwise_append] at increasing
    exact increasing.2.2 box (List.mem_map_of_mem (lane.known box _ drain)) other mem
  · simpa [Channel.dispatching, isAccepted] using accepted
  · intro detached
    exact Or.inr rfl
  · intro other outcome impossible
    cases impossible
  · exact lane.lost

/-- A replayed frame is dropped and counted. -/
theorem resume_replay (lane : Lane remoteEpk key sent ch remaining own dispatched)
    (drain : ch.drain = .compared box (.ok .replay)) :
    (ch.resume box (.ok .replay)).2 = false ∧
      Lane remoteEpk key sent (ch.resume box (.ok .replay)).1 remaining own dispatched := by
  have attached : ch.detached = false := by
    rw [← Bool.not_eq_true]
    intro detached
    rcases lane.attached detached with idle | next
    · rw [drain] at idle
      cases idle
    · rw [drain] at next
      cases next
  -- a replay is a frame that does not open, and is not dispatched
  have resumed : ch.resume box (.ok .replay) =
      (({ ch with drain := .next } : Channel).openFailed, false) := by
    simp [Channel.resume, attached]
  rw [resumed]
  refine ⟨rfl, ?_⟩
  obtain ⟨next, sameKey, samePeer, sameSeq⟩ :=
    Channel.openFailed_fields ({ ch with drain := .next } : Channel)
  obtain ⟨comparing, dispatching⟩ := comparing_of_drain (Or.inr next)
  have order := lane.order
  have behind := lane.behind
  have accepted := lane.accepted
  simp only [Channel.comparing, Channel.dispatching, drain] at order behind accepted
  constructor
  · rw [samePeer]
    exact lane.peer
  · rw [sameKey]
    exact lane.key
  · rw [comparing]
    exact order
  · rw [comparing, sameSeq]
    exact behind
  · rw [dispatching]
    simpa [isAccepted] using accepted
  · intro detached
    exact Or.inr next
  · intro other outcome is
    rw [next] at is
    cases is
  · intro detached
    exact ⟨_, lane.known box _ drain, rfl⟩

end Lane

/-! ## All processes -/

/-- The comparisons of one process with their results. -/
def comparisonsOf (comparisons : List (Comparison ι)) (process : ι) :
    List (SealedBox × Except PeerError RecvSeqAdvanceResult) :=
  (comparisons.filter fun c => c.process = process).map fun c => (c.box, c.outcome)

theorem comparisonsOf_append (comparisons : List (Comparison ι)) (c : Comparison ι)
    (process : ι) :
    comparisonsOf (comparisons ++ [c]) process =
      comparisonsOf comparisons process ++
        if c.process = process then [(c.box, c.outcome)] else [] := by
  rw [comparisonsOf, List.filter_append, List.map_append]
  by_cases same : c.process = process
  · simp [comparisonsOf, same]
  · simp [comparisonsOf, same]

variable {comparisons : List (Comparison ι)}

theorem mem_comparisonsOf {process : ι}
    {entry : SealedBox × Except PeerError RecvSeqAdvanceResult}
    (mem : entry ∈ comparisonsOf comparisons process) :
    ∃ c ∈ comparisons, c.process = process ∧ (c.box, c.outcome) = entry := by
  obtain ⟨c, kept, rfl⟩ := List.mem_map.mp mem
  obtain ⟨mem, same⟩ := List.mem_filter.mp kept
  exact ⟨c, mem, by simpa using same, rfl⟩

/-- The result of a comparison after the given ones. -/
def ruling (before : List (Comparison ι)) (box : SealedBox) : RecvSeqAdvanceResult :=
  if ∀ earlier ∈ before, earlier.box.seq < box.seq then .accepted else .replay

/-- The high-water is the highest sequence compared so far, or the initial one. -/
structure TopOf (high : Nat) (comparisons : List (Comparison ι)) (top : Nat) : Prop where
  least : high ≤ top
  upper : ∀ c ∈ comparisons, c.box.seq ≤ top
  reached : top = high ∨ ∃ c ∈ comparisons, c.box.seq = top

structure SharedInvariant (remoteEpk key : String) (frames : List (ι × SealedBox)) (high : Nat)
    (s : SharedRun ι) : Prop where
  stored : ∃ top, Stored s.file remoteEpk key top ∧ TopOf high s.comparisons top
  ruled : ∀ before c after, s.comparisons = before ++ c :: after →
    c.outcome = .ok (ruling before c.box)
  lanes : ∀ process, Lane remoteEpk key (addressed frames process) (s.channels process)
    (s.remaining process) (comparisonsOf s.comparisons process) (s.dispatched process)

section Steps

variable {decodes : String → Bool} {frames : List (ι × SealedBox)} {s s' : SharedRun ι}
  {process : ι}

theorem pairwise_of_genuine (genuine : GenuineFrames decodes key high frames)
    (process : ι) : (addressed frames process).Pairwise fun a b => a.seq < b.seq := by
  have increasing := genuine.increasing
  rw [List.pairwise_map] at increasing
  rw [addressed, List.pairwise_map]
  exact List.Pairwise.filter _ increasing

theorem genuine_of_mem {box : SealedBox} (mem : box ∈ addressed frames process) :
    ∃ frame ∈ frames, frame.2 = box := by
  obtain ⟨frame, kept, is⟩ := List.mem_map.mp mem
  exact ⟨frame, (List.mem_filter.mp kept).1, is⟩

omit [DecidableEq ι] in
/-- A comparison against the highest sequence so far has the result of the rule. -/
theorem compare_ruling {top : Nat} {box : SealedBox} {file : PeersFile}
    (stored : Stored file remoteEpk key top) (isTop : TopOf high comparisons top)
    (fits : box.seq ≤ maxUint64) (fresh : high < box.seq) (process : ι) :
    (compareAndAdvanceRecvSeq file .none remoteEpk key box.seq).1 =
        .ok (ruling comparisons box) ∧
      ∃ top', Stored (compareAndAdvanceRecvSeq file .none remoteEpk key box.seq).2
          remoteEpk key top' ∧
        TopOf high (comparisons ++ [⟨process, box,
          (compareAndAdvanceRecvSeq file .none remoteEpk key box.seq).1⟩]) top' := by
  rcases Nat.lt_or_ge top box.seq with newer | old
  · obtain ⟨accepted, advanced⟩ := compare_accepted stored fits newer
    have above : ∀ earlier ∈ comparisons, earlier.box.seq < box.seq := by
      intro earlier mem
      exact Nat.lt_of_le_of_lt (isTop.upper earlier mem) newer
    refine ⟨by rw [accepted, ruling, if_pos above], box.seq, advanced, ?_⟩
    constructor
    · omega
    · intro c mem
      rcases List.mem_append.mp mem with before | new
      · exact Nat.le_of_lt (above c before)
      · rw [List.mem_singleton.mp new]
    · exact Or.inr ⟨_, List.mem_append_right _ (List.mem_singleton.mpr rfl), rfl⟩
  · have replayed := compare_replay stored fits old
    have notAbove : ¬∀ earlier ∈ comparisons, earlier.box.seq < box.seq := by
      intro above
      rcases isTop.reached with initial | ⟨c, mem, is⟩
      · omega
      · have lt := above c mem
        omega
    rw [replayed]
    refine ⟨by rw [ruling, if_neg notAbove], top, stored, ?_⟩
    constructor
    · exact isTop.least
    · intro c mem
      rcases List.mem_append.mp mem with before | new
      · exact isTop.upper c before
      · rw [List.mem_singleton.mp new]
        exact old
    · rcases isTop.reached with initial | ⟨c, mem, is⟩
      · exact Or.inl initial
      · exact Or.inr ⟨c, List.mem_append_left _ mem, is⟩

theorem take_step (genuine : GenuineFrames decodes key high frames)
    (inv : SharedInvariant remoteEpk key frames high s)
    (taken : s.take decodes process = some s') :
    SharedInvariant remoteEpk key frames high s' := by
  have lane := inv.lanes process
  simp only [SharedRun.take] at taken
  split at taken
  case h_1 => cases taken
  case h_2 => cases taken
  case h_3 => cases taken
  case h_4 drain box rest waiting notComparing notCompared =>
  split at taken
  · cases taken
  next attached =>
  cases taken
  rw [Bool.not_eq_true] at attached
  have ready : (s.channels process).drain = .idle ∨ (s.channels process).drain = .next := by
    cases state : (s.channels process).drain with
    | idle => exact Or.inl rfl
    | next => exact Or.inr rfl
    | comparing other => exact absurd state (notComparing other)
    | compared other outcome => exact absurd state (notCompared other outcome)
  rw [waiting] at lane
  have sent : box ∈ addressed frames process := by
    rw [← lane.order]
    simp
  obtain ⟨frame, mem, rfl⟩ := genuine_of_mem sent
  have opens := Channel.openAndRoute_genuine attached
    ((genuine.key frame mem).trans lane.key.symm) (genuine.direction frame mem)
    (lane.behind frame.2 (by simp)) (genuine.decodes frame mem)
  rw [opens]
  refine ⟨inv.stored, inv.ruled, ?_⟩
  intro other
  rcases eq_or_ne other process with rfl | elsewhere
  · simp only [Function.update_self]
    exact lane.take ready attached
  · simp only [Function.update_of_ne elsewhere]
    exact inv.lanes other

theorem compare_step (genuine : GenuineFrames decodes key high frames)
    (inv : SharedInvariant remoteEpk key frames high s)
    (taken : s.compare process = some s') : SharedInvariant remoteEpk key frames high s' := by
  have lane := inv.lanes process
  simp only [SharedRun.compare] at taken
  split at taken
  case h_2 => cases taken
  case h_1 box drain =>
  have args : compareAndAdvanceRecvSeq s.file .none (s.channels process).remotePeerId
      (s.channels process).channelKey box.seq =
        compareAndAdvanceRecvSeq s.file .none remoteEpk key box.seq := by
    rw [lane.peer, lane.key]
  rw [args] at taken
  cases taken
  have sent : box ∈ addressed frames process := by
    rw [← lane.order, Channel.comparing, drain]
    simp
  obtain ⟨frame, mem, rfl⟩ := genuine_of_mem sent
  obtain ⟨top, stored, isTop⟩ := inv.stored
  obtain ⟨result, advanced⟩ := compare_ruling stored isTop (genuine.fits frame mem)
    (genuine.fresh frame mem) process
  constructor
  · exact advanced
  · intro before c after split
    rcases List.eq_nil_or_concat after with rfl | ⟨after', last, rfl⟩
    · obtain ⟨rfl, same⟩ := List.append_inj' split rfl
      cases same
      exact result
    · rw [List.concat_eq_append, ← List.cons_append, ← List.append_assoc] at split
      exact inv.ruled before c after' (List.append_inj' split rfl).1
  · intro other
    rcases eq_or_ne other process with rfl | elsewhere
    · simp only [Function.update_self, comparisonsOf_append, if_true]
      exact lane.compare drain
    · simp only [Function.update_of_ne elsewhere, comparisonsOf_append, if_neg elsewhere.symm,
        List.append_nil]
      exact inv.lanes other

theorem resume_step (genuine : GenuineFrames decodes key high frames)
    (inv : SharedInvariant remoteEpk key frames high s)
    (taken : s.resume process = some s') : SharedInvariant remoteEpk key frames high s' := by
  have lane := inv.lanes process
  simp only [SharedRun.resume] at taken
  split at taken
  case h_2 => cases taken
  case h_1 box outcome drain =>
  cases taken
  obtain ⟨c, mem, -, is⟩ := mem_comparisonsOf (lane.known box outcome drain)
  obtain ⟨before, after, split⟩ := List.append_of_mem mem
  have ruled : outcome = .ok (ruling before c.box) := by
    cases is
    exact inv.ruled before c after split
  refine ⟨inv.stored, inv.ruled, ?_⟩
  intro other
  rcases eq_or_ne other process with rfl | elsewhere
  · simp only [Function.update_self]
    rw [ruling] at ruled
    split at ruled
    · subst ruled
      obtain ⟨dispatches, resumed⟩ := lane.resume_accepted (pairwise_of_genuine genuine _) drain
      rw [if_pos dispatches, Function.update_self]
      exact resumed
    · subst ruled
      obtain ⟨drops, resumed⟩ := lane.resume_replay drain
      rw [if_neg (by simp [drops])]
      exact resumed
  · simp only [Function.update_of_ne elsewhere]
    have sameDispatched : (if ((s.channels process).resume box outcome).2 = true then
        Function.update s.dispatched process (s.dispatched process ++ [box])
        else s.dispatched) other = s.dispatched other := by
      split
      · exact Function.update_of_ne elsewhere _ _
      · rfl
    rw [sameDispatched]
    exact inv.lanes other

end Steps

/-! ## Whole runs -/

section Runs

variable {decodes : String → Bool} {frames : List (ι × SealedBox)} {s : SharedRun ι}

theorem sharedInvariant_run (reached : (sharedMachine decodes remoteEpk key frames).Reachable s) :
    ∃ high, SharedInvariant remoteEpk key frames high s := by
  obtain ⟨start, ⟨high, genuine, stored, attached, remaining, comparisons, dispatched⟩, run⟩ :=
    reached
  refine ⟨high, run.invariant (I := SharedInvariant remoteEpk key frames high) ?_ ?_⟩
  · intro before action after inv _ taken
    cases action with
    | take process => exact take_step genuine inv taken
    | compare process => exact compare_step genuine inv taken
    | resume process => exact resume_step genuine inv taken
  -- at the start nothing is compared, and every lane is idle
  · constructor
    · refine ⟨high, stored, Nat.le_refl high, ?_, Or.inl rfl⟩
      rw [comparisons]
      intro c mem
      cases mem
    · rw [comparisons]
      intro before c after impossible
      simp at impossible
    · intro process
      obtain ⟨peer, sameKey, isAttached, recv, idle⟩ := attached process
      obtain ⟨comparing, dispatching⟩ := Lane.comparing_of_drain (Or.inl idle)
      rw [remaining, comparisons, dispatched]
      constructor
      · exact peer
      · exact sameKey
      · rw [comparing]
        rfl
      · rw [comparing]
        intro box mem
        obtain ⟨frame, sent, rfl⟩ := genuine_of_mem mem
        have fresh := genuine.fresh frame sent
        omega
      · rw [dispatching]
        rfl
      · intro detached
        rw [isAttached] at detached
        cases detached
      · intro box outcome is
        rw [idle] at is
        cases is
      · intro detached
        rw [isAttached] at detached
        cases detached

omit [DecidableEq ι] in
/-- Every comparison accepted exactly when the comparisons were in sending order. -/
theorem accepted_iff_in_order (ruled : ∀ before c after, comparisons = before ++ c :: after →
      c.outcome = .ok (ruling before c.box)) :
    (∀ c ∈ comparisons, isAccepted c.outcome = true) ↔
      (comparisons.map fun c => c.box.seq).Pairwise (· < ·) := by
  induction comparisons using List.reverseRecOn with
  | nil => simp
  | append_singleton earlier last ih =>
    have before := ih fun before c after split =>
      ruled before c (after ++ [last]) (by rw [split, List.append_assoc]; rfl)
    have now : isAccepted last.outcome = true ↔ ∀ c ∈ earlier, c.box.seq < last.box.seq := by
      rw [ruled earlier last [] rfl, ruling]
      split
      · next above => exact iff_of_true rfl above
      · next below => exact iff_of_false (by decide) below
    rw [List.map_append, List.pairwise_append, ← before]
    constructor
    · intro all
      refine ⟨fun c mem => all c (List.mem_append_left _ mem), List.pairwise_singleton _ _, ?_⟩
      intro x memX y memY
      obtain ⟨c, mem, rfl⟩ := List.mem_map.mp memX
      obtain rfl : y = last.box.seq := by simpa using memY
      exact now.mp (all last (by simp)) c mem
    · rintro ⟨all, -, above⟩ c mem
      rcases List.mem_append.mp mem with old | new
      · exact all c old
      · rw [List.mem_singleton.mp new]
        exact now.mpr fun e memE =>
          above _ (List.mem_map_of_mem memE) _ (by simp)

/-- A process has lost nothing exactly when all its comparisons accepted. -/
theorem Lane.kept_iff {sent remaining dispatched : List SealedBox} {ch : Channel}
    {own : List (SealedBox × Except PeerError RecvSeqAdvanceResult)}
    (lane : Lane remoteEpk key sent ch remaining own dispatched) :
    dispatched ++ ch.inHand ++ remaining = sent ↔ ∀ c ∈ own, isAccepted c.2 = true := by
  rw [← lane.order, Channel.inHand, ← List.append_assoc, lane.accepted, List.append_left_inj,
    List.append_left_inj]
  constructor
  · intro same c mem
    have lengths := congrArg List.length same
    rw [List.length_map, List.length_map] at lengths
    exact List.length_filter_eq_length_iff.mp lengths c mem
  · intro all
    rw [List.filter_eq_self.mpr all]

/-- In every interleaving, a comparison accepts its frame exactly when the frame is above all
frames compared before it, and finds it replayed otherwise. At any moment every frame of every
process is dispatched, in hand or still to come if and only if the comparisons so far were in
sending order; and then no channel has been detached. -/
theorem kept_iff_in_order (reached : (sharedMachine decodes remoteEpk key frames).Reachable s) :
    (∀ before c after, s.comparisons = before ++ c :: after →
        c.outcome = .ok (ruling before c.box)) ∧
      ((∀ process, s.dispatched process ++ (s.channels process).inHand ++ s.remaining process =
          addressed frames process) ↔
        (s.comparisons.map fun c => c.box.seq).Pairwise (· < ·)) ∧
      ((s.comparisons.map fun c => c.box.seq).Pairwise (· < ·) →
        ∀ process, (s.channels process).detached = false) := by
  obtain ⟨high, inv⟩ := sharedInvariant_run reached
  have inOrder := accepted_iff_in_order inv.ruled
  refine ⟨inv.ruled, ?_, ?_⟩
  · rw [← inOrder]
    constructor
    · intro kept c mem
      have own := (inv.lanes c.process).kept_iff.mp (kept c.process)
      refine own (c.box, c.outcome) (List.mem_map.mpr ⟨c, ?_, rfl⟩)
      exact List.mem_filter.mpr ⟨mem, by simp⟩
    · intro all process
      refine (inv.lanes process).kept_iff.mpr ?_
      intro entry mem
      obtain ⟨c, compared, -, rfl⟩ := mem_comparisonsOf mem
      exact all c compared
  · intro ordered process
    rw [← Bool.not_eq_true]
    intro detached
    obtain ⟨entry, mem, replay⟩ := (inv.lanes process).lost detached
    obtain ⟨c, compared, -, rfl⟩ := mem_comparisonsOf mem
    have accepted := inOrder.mpr ordered c compared
    rw [show c.outcome = .ok .replay from replay] at accepted
    cases accepted

end Runs

/-- Two freshly attached processes, with a frame for each. -/
def twoRooms : SharedRun Bool where
  file := .document (.object [("peers", .array
    [(⟨"phone", "owner", "2026-01-01", some "key", some "0", some "0"⟩ : PeerRecord).toJson])])
  channels room := ⟨room.toNat, "owner", "key", false, false, 0, 0, [], none, [], .idle⟩
  remaining room := if room then [⟨"key", .appToPi, 2, 0, "abort"⟩]
    else [⟨"key", .appToPi, 1, 0, "prompt"⟩]
  comparisons := []
  dispatched _ := []

/-- The frames of `twoRooms` in sending order. -/
def twoRoomsFrames : List (Bool × SealedBox) :=
  [(false, ⟨"key", .appToPi, 1, 0, "prompt"⟩), (true, ⟨"key", .appToPi, 2, 0, "abort"⟩)]

theorem init_twoRooms :
    (sharedMachine (fun _ => true) "owner" "key" twoRoomsFrames).Init twoRooms := by
  refine ⟨0, ?_, ⟨_, 0, _, rfl, rfl, by decide, by decide⟩, ?_, ?_, rfl, rfl⟩
  · constructor <;> decide
  · intro process
    exact ⟨rfl, rfl, rfl, Nat.le_refl 0, rfl⟩
  · funext process
    cases process <;> rfl

/-- The first frame is lost when the process of the second one compares before. -/
theorem exists_genuine_frame_replayed :
    ∃ s, (sharedMachine (fun _ => true) "owner" "key" twoRoomsFrames).Reachable s ∧
      s.remaining false = [] ∧ s.dispatched false = [] ∧
      addressed twoRoomsFrames false = [⟨"key", .appToPi, 1, 0, "prompt"⟩] ∧
      ∃ c ∈ s.comparisons, c.process = false ∧ c.outcome = .ok .replay := by
  have ran : ((sharedMachine (fun _ => true) "owner" "key" twoRoomsFrames).exec twoRooms
      [.take false, .take true, .compare true, .compare false, .resume true, .resume false]).any
      (fun s => decide (s.remaining false = []) && decide (s.dispatched false = []) &&
        s.comparisons.any fun c => !c.process && decide (c.outcome = .ok .replay)) = true := by
    decide
  obtain ⟨s, executed, lost⟩ := (Option.any_eq_true _ _).mp ran
  rw [Bool.and_eq_true, Bool.and_eq_true, decide_eq_true_eq, decide_eq_true_eq,
    List.any_eq_true] at lost
  obtain ⟨⟨taken, undispatched⟩, c, mem, replayed⟩ := lost
  refine ⟨s, Machine.reachable_of_exec init_twoRooms executed, taken, undispatched, rfl, c, mem, ?_⟩
  rw [Bool.and_eq_true] at replayed
  obtain ⟨room, replay⟩ := replayed
  exact ⟨by simpa using room, of_decide_eq_true replay⟩

/-- In sending order both rooms get their frame. -/
theorem kept_iff_in_order_two_rooms :
    ∃ s, (sharedMachine (fun _ => true) "owner" "key" twoRoomsFrames).Reachable s ∧
      (s.comparisons.map fun c => c.box.seq) = [1, 2] ∧
      ∀ room, s.dispatched room ++ (s.channels room).inHand ++ s.remaining room =
        addressed twoRoomsFrames room := by
  have ran : ((sharedMachine (fun _ => true) "owner" "key" twoRoomsFrames).exec twoRooms
      [.take true, .take false, .compare false, .compare true, .resume true, .resume false]).any
      (fun s => decide ((s.comparisons.map fun c => c.box.seq) = [1, 2])) = true := by decide
  obtain ⟨s, executed, order⟩ := (Option.any_eq_true _ _).mp ran
  rw [decide_eq_true_eq] at order
  have reached := Machine.reachable_of_exec init_twoRooms executed
  refine ⟨s, reached, order, (kept_iff_in_order reached).2.1.mpr ?_⟩
  rw [order]
  decide

end OutpostPi.Pi
