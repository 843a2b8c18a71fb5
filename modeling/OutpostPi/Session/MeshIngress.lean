import Mathlib.Algebra.Order.BigOperators.Group.List
import Mathlib.Algebra.Order.Ring.Nat
import OutpostPi.Lib.Machine
import OutpostPi.Lib.Map

/-!
# Mesh ingress batching

Mesh messages wait in arrival order until no agent run is active. A flush is scheduled as a
microtask, takes everything that waits as one batch and hands it to the agent. The batch stays
in the queue and in all accounts until the handoff settles: a success or a stale failure
removes it from the front, any other failure leaves it for the next boundary.

`meshMachine` interleaves the operations with the microtasks and the outcomes of the handoffs,
those that an earlier epoch left behind included. `mesh_ingress_conserves` is what holds in
every run.
-/

set_option autoImplicit false

namespace OutpostPi.Session

open OutpostPi.Lib

/-- An admitted message. The serial stands for the identity of the object. -/
structure PendingMeshMessage where
  serial : Nat
  peerId : String
  content : String
  bytes : Nat
  deriving DecidableEq

/-- What is pending of one peer. -/
structure PeerMeshAccounting where
  frames : Nat
  bytes : Nat
  deriving DecidableEq

/-- The limits of what may be pending, in all and of one peer. -/
structure MeshIngressLimits where
  maxFrames : Nat
  maxBytes : Nat
  maxFramesPerPeer : Nat
  maxBytesPerPeer : Nat
  deriving DecidableEq

/-- `DEFAULT_MESH_INGRESS_LIMITS`. -/
def defaultMeshIngressLimits : MeshIngressLimits := ⟨128, 1024 * 1024, 32, 256 * 1024⟩

/-- The limit that a message would exceed. -/
inductive MeshIngressRejection
  | frameLimit
  | byteLimit
  deriving DecidableEq

/-- A handoff that has not settled: its batch, the text that the agent was given, the message
API that it was given to, and the epoch in which it was scheduled. -/
structure Handoff where
  batch : List PendingMeshMessage
  content : String
  api : Nat
  generation : Nat
  deriving DecidableEq

/-- The mesh part of the session projection, with the epochs of the queued flushes and the
outstanding handoffs. What was accepted and what left the queue since the last replacement of
the contexts, the latter with whether it was delivered, is history. -/
structure MeshIngress where
  meshIngressLimits : MeshIngressLimits
  pendingMeshMessages : List PendingMeshMessage
  pendingMeshBytes : Nat
  pendingMeshByPeer : Map String PeerMeshAccounting
  agentRunActive : Bool
  meshFlushScheduled : Bool
  messageApi : Option Nat
  epoch : Nat
  flushes : List Nat
  handoffs : List Handoff
  accepted : List PendingMeshMessage
  settled : List (List PendingMeshMessage × Bool)

namespace MeshIngress

/-- Nothing is pending. -/
def new (limits : MeshIngressLimits) : MeshIngress :=
  { meshIngressLimits := limits
    pendingMeshMessages := []
    pendingMeshBytes := 0
    pendingMeshByPeer := ∅
    agentRunActive := false
    meshFlushScheduled := false
    messageApi := none
    epoch := 0
    flushes := []
    handoffs := []
    accepted := []
    settled := [] }

/-- Queue one flush, unless one is queued or under way, a run is active, nothing waits or no API
is bound. -/
def scheduleMeshMessageFlush (s : MeshIngress) : MeshIngress :=
  if s.meshFlushScheduled || s.agentRunActive || s.pendingMeshMessages.isEmpty ||
      s.messageApi.isNone then
    s
  else { s with meshFlushScheduled := true, flushes := s.flushes ++ [s.epoch] }

/-- The agent runs. -/
def markAgentRunStarted (s : MeshIngress) : MeshIngress := { s with agentRunActive := true }

/-- The agent has settled, and what is pending may be flushed. -/
def markAgentSettled (s : MeshIngress) : MeshIngress :=
  { s with agentRunActive := false }.scheduleMeshMessageFlush

/-- The account of a peer, zero when it has none. -/
def peerAccount (s : MeshIngress) (peerId : String) : PeerMeshAccounting :=
  (s.pendingMeshByPeer.lookup peerId).getD ⟨0, 0⟩

/-- The limit that a message would exceed. -/
def admissionError (s : MeshIngress) (peerId : String) (bytes : Nat) :
    Option MeshIngressRejection :=
  let limits := s.meshIngressLimits
  let peer := s.peerAccount peerId
  if limits.maxFrames ≤ s.pendingMeshMessages.length ∨ limits.maxFramesPerPeer ≤ peer.frames then
    some .frameLimit
  else if limits.maxBytes < s.pendingMeshBytes + bytes ∨
      limits.maxBytesPerPeer < peer.bytes + bytes then
    some .byteLimit
  else none

/-- Append an admitted message and charge the accounts. -/
def accept (s : MeshIngress) (peerId content : String) : MeshIngress :=
  let bytes := content.utf8ByteSize
  let peer := s.peerAccount peerId
  let message : PendingMeshMessage := ⟨s.accepted.length, peerId, content, bytes⟩
  { s with
    pendingMeshMessages := s.pendingMeshMessages ++ [message]
    pendingMeshBytes := s.pendingMeshBytes + bytes
    pendingMeshByPeer :=
      s.pendingMeshByPeer.insert peerId ⟨peer.frames + 1, peer.bytes + bytes⟩
    accepted := s.accepted ++ [message] }

/-- Take a message in, unless a limit refuses it. -/
def enqueueMeshMessage (s : MeshIngress) (peerId content : String) :
    Except MeshIngressRejection Unit × MeshIngress :=
  match s.admissionError peerId content.utf8ByteSize with
  | some rejection => (.error rejection, s)
  | none =>
    let admitted := s.accept peerId content
    (.ok (), if admitted.agentRunActive then admitted else admitted.scheduleMeshMessageFlush)

/-- Bind an API of the factory, if it has the message capability. -/
def bindApi (s : MeshIngress) (api : Option Nat) : MeshIngress :=
  let bound := { s with messageApi := api.or s.messageApi }
  if bound.agentRunActive then bound else bound.scheduleMeshMessageFlush

/-- Credit the account of the peer of one message. -/
def releaseOne (byPeer : Map String PeerMeshAccounting) (entry : PendingMeshMessage) :
    Map String PeerMeshAccounting :=
  match byPeer.lookup entry.peerId with
  | none => byPeer
  | some peer =>
    let frames := peer.frames - 1
    let bytes := peer.bytes - entry.bytes
    if frames = 0 then byPeer.erase entry.peerId else byPeer.insert entry.peerId ⟨frames, bytes⟩

/-- Remove a batch from the front of the queue and from the accounts. -/
def removePendingMeshBatch (s : MeshIngress) (batch : List PendingMeshMessage) : MeshIngress :=
  { s with
    pendingMeshMessages := s.pendingMeshMessages.drop batch.length
    pendingMeshBytes := s.pendingMeshBytes - (batch.map PendingMeshMessage.bytes).sum
    pendingMeshByPeer := batch.foldl releaseOne s.pendingMeshByPeer }

/-- A new epoch begins, with nothing pending. -/
def clearStaleContexts (s : MeshIngress) : MeshIngress :=
  { s with
    epoch := s.epoch + 1
    messageApi := none
    agentRunActive := false
    meshFlushScheduled := false
    pendingMeshMessages := []
    pendingMeshBytes := 0
    pendingMeshByPeer := ∅
    accepted := []
    settled := [] }

/-- The microtask of a flush that was queued in the given epoch. -/
def runFlush (s : MeshIngress) (generation : Nat) : MeshIngress :=
  if generation ≠ s.epoch then s
  else
    match s.messageApi with
    | none => { s with meshFlushScheduled := false }
    | some api =>
      if s.agentRunActive || s.pendingMeshMessages.isEmpty then
        { s with meshFlushScheduled := false }
      else
        let content := "\n\n---\n\n".intercalate
          (s.pendingMeshMessages.map PendingMeshMessage.content)
        { s with handoffs := s.handoffs ++ [⟨s.pendingMeshMessages, content, api, generation⟩] }

/-- The agent has taken a batch. One of an earlier epoch does not matter any more. -/
def handoffSucceeded (s : MeshIngress) (handoff : Handoff) : MeshIngress :=
  if handoff.generation ≠ s.epoch then s
  else
    let removed := s.removePendingMeshBatch handoff.batch
    { removed with
      meshFlushScheduled := false
      settled := s.settled ++ [(handoff.batch, true)] }.scheduleMeshMessageFlush

/-- Forget a stale API, unless another one is bound by now. -/
def forget (s : MeshIngress) (api : Nat) : MeshIngress :=
  if s.messageApi = some api then { s with messageApi := none } else s

/-- The agent has not taken a batch. It stays pending, unless its context is stale. -/
def handoffFailed (s : MeshIngress) (handoff : Handoff) (stale : Bool) : MeshIngress :=
  if handoff.generation ≠ s.epoch then s
  else if stale then
    let removed := (s.forget handoff.api).removePendingMeshBatch handoff.batch
    { removed with
      meshFlushScheduled := false
      settled := s.settled ++ [(handoff.batch, false)] }
  else { s with meshFlushScheduled := false }

end MeshIngress

/-- How a handoff settles. -/
inductive HandoffOutcome
  | success
  | stale
  | failure
  deriving DecidableEq

/-- The operations, the microtasks and the outcomes. `rebind` is every other change of the
bound message API: other contexts bind one, and a stale one is forgotten. -/
inductive MeshAction
  | enqueueMeshMessage (peerId content : String)
  | markAgentRunStarted
  | markAgentSettled
  | bindApi (api : Option Nat)
  | rebind (api : Option Nat)
  | clearStaleContexts
  | flush (index : Nat)
  | settle (index : Nat) (outcome : HandoffOutcome)

/-- Settle an outstanding handoff. -/
def MeshIngress.settle (s : MeshIngress) (handoff : Handoff) : HandoffOutcome → MeshIngress
  | .success => s.handoffSucceeded handoff
  | .stale => s.handoffFailed handoff true
  | .failure => s.handoffFailed handoff false

/-- Messages, flushes and handoffs interleave freely. -/
def meshMachine : Machine MeshIngress MeshAction where
  Init s := ∃ limits, s = .new limits
  step s
    | .enqueueMeshMessage peerId content => some (s.enqueueMeshMessage peerId content).2
    | .markAgentRunStarted => some s.markAgentRunStarted
    | .markAgentSettled => some s.markAgentSettled
    | .bindApi api => some (s.bindApi api)
    | .rebind api => some { s with messageApi := api }
    | .clearStaleContexts => some s.clearStaleContexts
    | .flush index =>
      (s.flushes[index]?).map fun generation =>
        { s with flushes := s.flushes.eraseIdx index }.runFlush generation
    | .settle index outcome =>
      (s.handoffs[index]?).map fun handoff =>
        { s with handoffs := s.handoffs.eraseIdx index }.settle handoff outcome

/-! ## Accounts -/

/-- The messages of one peer. -/
def ownMessages (peerId : String) (messages : List PendingMeshMessage) : List PendingMeshMessage :=
  messages.filter fun message => message.peerId = peerId

/-- What the messages of a peer add up to. -/
def accountOf (peerId : String) (messages : List PendingMeshMessage) : PeerMeshAccounting :=
  ⟨(ownMessages peerId messages).length,
    ((ownMessages peerId messages).map PendingMeshMessage.bytes).sum⟩

/-- The accounts of the peers with messages are what the messages add up to, and there are no
other accounts. -/
def Accounts (byPeer : Map String PeerMeshAccounting) (messages : List PendingMeshMessage) : Prop :=
  ∀ peerId, byPeer.lookup peerId =
    if ownMessages peerId messages = [] then none else some (accountOf peerId messages)

section Accounts

variable {byPeer : Map String PeerMeshAccounting} {messages batch rest : List PendingMeshMessage}
  {entry : PendingMeshMessage} {peerId : String}

theorem ownMessages_cons_self :
    ownMessages entry.peerId (entry :: rest) = entry :: ownMessages entry.peerId rest := by
  simp [ownMessages]

theorem ownMessages_cons_of_ne (other : peerId ≠ entry.peerId) :
    ownMessages peerId (entry :: rest) = ownMessages peerId rest := by
  simp [ownMessages, Ne.symm other]

theorem ownMessages_append :
    ownMessages peerId (messages ++ rest) = ownMessages peerId messages ++ ownMessages peerId rest :=
  List.filter_append _ _

/-- The account that an operation reads, zero when there is none. -/
theorem Accounts.getD (accounts : Accounts byPeer messages) (peerId : String) :
    (byPeer.lookup peerId).getD ⟨0, 0⟩ = accountOf peerId messages := by
  rw [accounts peerId]
  split
  · next none => simp [accountOf, none]
  · rfl

theorem Accounts.accept (accounts : Accounts byPeer messages) (entry : PendingMeshMessage) :
    Accounts (byPeer.insert entry.peerId
        ⟨(accountOf entry.peerId messages).frames + 1,
          (accountOf entry.peerId messages).bytes + entry.bytes⟩) (messages ++ [entry]) := by
  intro peerId
  by_cases same : peerId = entry.peerId
  · subst same
    rw [AList.lookup_insert, ownMessages_append, ownMessages_cons_self]
    simp [accountOf, ownMessages]
  · rw [AList.lookup_insert_ne same, accounts peerId, accountOf, accountOf, ownMessages_append,
      ownMessages_cons_of_ne same]
    simp [ownMessages]

theorem Accounts.releaseOne (accounts : Accounts byPeer (entry :: rest)) :
    Accounts (MeshIngress.releaseOne byPeer entry) rest := by
  have own := accounts entry.peerId
  rw [if_neg (by simp [ownMessages_cons_self])] at own
  intro peerId
  rw [MeshIngress.releaseOne, own]
  dsimp only
  have frames : (accountOf entry.peerId (entry :: rest)).frames - 1 =
      (accountOf entry.peerId rest).frames := by
    simp [accountOf, ownMessages_cons_self]
  have bytes : (accountOf entry.peerId (entry :: rest)).bytes - entry.bytes =
      (accountOf entry.peerId rest).bytes := by
    simp [accountOf, ownMessages_cons_self]
  rw [frames, bytes]
  by_cases same : peerId = entry.peerId
  · subst same
    split
    · next last =>
      have none : ownMessages entry.peerId rest = [] := List.length_eq_zero_iff.mp last
      rw [AList.lookup_erase, if_pos none]
    · next more =>
      have some : ownMessages entry.peerId rest ≠ [] := fun none => more (by simp [accountOf, none])
      rw [AList.lookup_insert, if_neg some]
  · have before := accounts peerId
    rw [accountOf, ownMessages_cons_of_ne same] at before
    split
    · rw [AList.lookup_erase_ne same, before]
      rfl
    · rw [AList.lookup_insert_ne same, before]
      rfl

theorem Accounts.release (accounts : Accounts byPeer (batch ++ rest)) :
    Accounts (batch.foldl MeshIngress.releaseOne byPeer) rest := by
  induction batch generalizing byPeer with
  | nil => exact accounts
  | cons entry batch ih => exact ih accounts.releaseOne

end Accounts

/-- The queue respects the four limits. -/
structure WithinLimits (limits : MeshIngressLimits) (messages : List PendingMeshMessage) : Prop where
  frames : messages.length ≤ limits.maxFrames
  bytes : (messages.map PendingMeshMessage.bytes).sum ≤ limits.maxBytes
  framesPerPeer : ∀ peerId, (accountOf peerId messages).frames ≤ limits.maxFramesPerPeer
  bytesPerPeer : ∀ peerId, (accountOf peerId messages).bytes ≤ limits.maxBytesPerPeer

/-- A part of the queue respects them too. -/
theorem WithinLimits.sublist {limits : MeshIngressLimits} {messages rest : List PendingMeshMessage}
    (within : WithinLimits limits messages) (part : rest.Sublist messages) :
    WithinLimits limits rest where
  frames := le_trans part.length_le within.frames
  bytes := le_trans ((part.map _).sum_le_sum fun _ _ => Nat.zero_le _) within.bytes
  framesPerPeer peerId := le_trans (part.filter _).length_le (within.framesPerPeer peerId)
  bytesPerPeer peerId :=
    le_trans (((part.filter _).map _).sum_le_sum fun _ _ => Nat.zero_le _)
      (within.bytesPerPeer peerId)

/-- A message that exceeds no limit can be appended. -/
theorem WithinLimits.accept {limits : MeshIngressLimits} {messages : List PendingMeshMessage}
    {entry : PendingMeshMessage} {peerId : String} (within : WithinLimits limits messages)
    (sender : entry.peerId = peerId) (frames : messages.length + 1 ≤ limits.maxFrames)
    (bytes : (messages.map PendingMeshMessage.bytes).sum + entry.bytes ≤ limits.maxBytes)
    (framesPerPeer : (accountOf peerId messages).frames + 1 ≤ limits.maxFramesPerPeer)
    (bytesPerPeer : (accountOf peerId messages).bytes + entry.bytes ≤ limits.maxBytesPerPeer) :
    WithinLimits limits (messages ++ [entry]) := by
  subst sender
  refine ⟨by simpa using frames, by simpa using bytes, fun peerId => ?_, fun peerId => ?_⟩
  · by_cases same : peerId = entry.peerId
    · subst same
      simpa [accountOf, ownMessages] using framesPerPeer
    · simpa [accountOf, ownMessages, Ne.symm same] using within.framesPerPeer peerId
  · by_cases same : peerId = entry.peerId
    · subst same
      simpa [accountOf, ownMessages] using bytesPerPeer
    · simpa [accountOf, ownMessages, Ne.symm same] using within.bytesPerPeer peerId

/-! ## The invariant -/

/-- The accounts are exact and within the limits, and what was accepted is what left the queue
followed by what waits in it. -/
structure Ledger (s : MeshIngress) : Prop where
  bytes : s.pendingMeshBytes = (s.pendingMeshMessages.map PendingMeshMessage.bytes).sum
  accounts : Accounts s.pendingMeshByPeer s.pendingMeshMessages
  within : WithinLimits s.meshIngressLimits s.pendingMeshMessages
  conserved : s.accepted = s.settled.flatMap Prod.fst ++ s.pendingMeshMessages
  serials : s.accepted.map PendingMeshMessage.serial = List.range s.accepted.length

/-- How many flushes of the present epoch are queued or under way. -/
def MeshIngress.inFlight (s : MeshIngress) : Nat :=
  s.flushes.countP (· == s.epoch) + s.handoffs.countP (·.generation == s.epoch)

/-- The flag counts the flushes of the present epoch, which has no later one, and the batch
under way stands at the front of the queue. -/
structure Flight (s : MeshIngress) : Prop where
  flushes : ∀ generation ∈ s.flushes, generation ≤ s.epoch
  handoffs : ∀ handoff ∈ s.handoffs, handoff.generation ≤ s.epoch
  single : s.inFlight = if s.meshFlushScheduled then 1 else 0
  front : ∀ handoff ∈ s.handoffs, handoff.generation = s.epoch →
    handoff.batch <+: s.pendingMeshMessages

section Steps

variable {s : MeshIngress}

theorem ledger_new (limits : MeshIngressLimits) : Ledger (.new limits) where
  bytes := rfl
  accounts _ := rfl
  within := ⟨Nat.zero_le _, Nat.zero_le _, fun _ => Nat.zero_le _, fun _ => Nat.zero_le _⟩
  conserved := rfl
  serials := rfl

theorem flight_new (limits : MeshIngressLimits) : Flight (.new limits) where
  flushes _ mem := by cases mem
  handoffs _ mem := by cases mem
  single := rfl
  front _ mem := by cases mem

/-- Scheduling touches only the flag and the queue of flushes. -/
theorem Ledger.schedule (ledger : Ledger s) : Ledger s.scheduleMeshMessageFlush := by
  rw [MeshIngress.scheduleMeshMessageFlush]
  split
  · exact ledger
  · exact { ledger with }

theorem Flight.schedule (flight : Flight s) : Flight s.scheduleMeshMessageFlush := by
  rw [MeshIngress.scheduleMeshMessageFlush]
  split
  · exact flight
  · next unscheduled =>
    have off : s.meshFlushScheduled = false := by
      cases flag : s.meshFlushScheduled with
      | false => rfl
      | true => exact absurd (by simp [flag]) unscheduled
    have none := flight.single
    rw [off, MeshIngress.inFlight] at none
    refine ⟨fun generation mem => ?_, flight.handoffs, ?_, flight.front⟩
    · rcases List.mem_append.mp mem with before | new
      · exact flight.flushes generation before
      · exact le_of_eq (List.mem_singleton.mp new)
    · rw [MeshIngress.inFlight]
      dsimp only
      rw [List.countP_append, List.countP_singleton]
      simp only [beq_self_eq_true, if_true]
      simp only [Bool.false_eq_true, if_false] at none
      omega

/-- An admitted message fits the limits. -/
theorem Ledger.accept {peerId content : String} (ledger : Ledger s)
    (fits : s.admissionError peerId content.utf8ByteSize = none) : Ledger (s.accept peerId content) := by
  rw [MeshIngress.admissionError, MeshIngress.peerAccount, ledger.accounts.getD] at fits
  split at fits
  · cases fits
  · next frames =>
    split at fits
    · cases fits
    · next bytes =>
      simp only [not_or, Nat.not_le, Nat.not_lt] at frames bytes
      have account : s.peerAccount peerId = accountOf peerId s.pendingMeshMessages :=
        ledger.accounts.getD peerId
      constructor
      · simp [MeshIngress.accept, ledger.bytes]
      · rw [MeshIngress.accept, account]
        exact ledger.accounts.accept ⟨s.accepted.length, peerId, content, _⟩
      · exact ledger.within.accept rfl frames.1 (ledger.bytes ▸ bytes.1) frames.2 bytes.2
      · simp [MeshIngress.accept, ledger.conserved]
      · simp [MeshIngress.accept, ledger.serials, List.range_succ]

theorem Flight.accept {peerId content : String} (flight : Flight s) : Flight (s.accept peerId content) where
  flushes := flight.flushes
  handoffs := flight.handoffs
  single := flight.single
  front handoff mem now := (flight.front handoff mem now).trans (List.prefix_append _ _)

/-- A batch at the front of the queue leaves it exactly. -/
theorem Ledger.remove {batch : List PendingMeshMessage} (ledger : Ledger s) (delivered : Bool)
    (front : batch <+: s.pendingMeshMessages) :
    Ledger { s.removePendingMeshBatch batch with
      settled := s.settled ++ [(batch, delivered)] } := by
  obtain ⟨rest, queue⟩ := front
  have left : s.pendingMeshMessages.drop batch.length = rest := by
    rw [← queue, List.drop_left]
  constructor
  · have total := ledger.bytes
    rw [← queue, List.map_append, List.sum_append] at total
    simp [MeshIngress.removePendingMeshBatch, left, total]
  · rw [MeshIngress.removePendingMeshBatch, left]
    exact (queue ▸ ledger.accounts : Accounts s.pendingMeshByPeer (batch ++ rest)).release
  · exact ledger.within.sublist (List.drop_sublist _ _)
  · simp [MeshIngress.removePendingMeshBatch, ledger.conserved, ← queue]
  · exact ledger.serials

end Steps

/-! ### Callbacks -/

/-- Taking an element out of a list takes it out of every count. -/
theorem countP_eraseIdx {α : Type} {l : List α} {i : Nat} {a : α} (p : α → Bool)
    (found : l[i]? = some a) :
    (l.eraseIdx i).countP p + (if p a then 1 else 0) = l.countP p := by
  obtain ⟨bound, rfl⟩ := List.getElem?_eq_some_iff.mp found
  rw [← (List.getElem_cons_eraseIdx_perm bound).countP_eq p, List.countP_cons]

/-- The state in which a callback runs: it has been taken from its queue, and stands for the
flush in flight when it is of the present epoch. -/
structure Landing (s : MeshIngress) (generation : Nat) : Prop where
  flushes : ∀ g ∈ s.flushes, g ≤ s.epoch
  handoffs : ∀ handoff ∈ s.handoffs, handoff.generation ≤ s.epoch
  single : s.inFlight + (if generation = s.epoch then 1 else 0) =
    if s.meshFlushScheduled then 1 else 0
  front : ∀ handoff ∈ s.handoffs, handoff.generation = s.epoch →
    handoff.batch <+: s.pendingMeshMessages

section Callbacks

variable {s : MeshIngress}

variable {generation : Nat}

theorem Flight.takeFlush {index : Nat} (flight : Flight s)
    (queued : s.flushes[index]? = some generation) :
    Landing { s with flushes := s.flushes.eraseIdx index } generation :=
  { flight with
    flushes g mem := flight.flushes g (List.mem_of_mem_eraseIdx mem)
    single := by
      have count := countP_eraseIdx (· == s.epoch) queued
      have single := flight.single
      rw [MeshIngress.inFlight] at single ⊢
      simp only [beq_iff_eq] at count
      dsimp only
      omega }

variable {handoff : Handoff}

theorem Flight.takeHandoff {index : Nat} (flight : Flight s)
    (outstanding : s.handoffs[index]? = some handoff) :
    Landing { s with handoffs := s.handoffs.eraseIdx index } handoff.generation where
  flushes := flight.flushes
  handoffs other mem := flight.handoffs other (List.mem_of_mem_eraseIdx mem)
  single := by
    have count := countP_eraseIdx (·.generation == s.epoch) outstanding
    have single := flight.single
    rw [MeshIngress.inFlight] at single ⊢
    simp only [beq_iff_eq] at count
    dsimp only
    omega
  front other mem := flight.front other (List.mem_of_mem_eraseIdx mem)

/-- A callback of an earlier epoch changes nothing. -/
theorem Landing.past (landing : Landing s generation) (earlier : generation ≠ s.epoch) : Flight s :=
  { landing with single := by simpa [earlier] using landing.single }

/-- With the callback of the present epoch taken, nothing is in flight. -/
theorem Landing.alone (landing : Landing s s.epoch) : s.inFlight = 0 := by
  have single := landing.single
  rw [if_pos rfl] at single
  split at single <;> omega

/-- Nothing in flight and the flag cleared. -/
theorem Landing.clear (landing : Landing s s.epoch) :
    Flight { s with meshFlushScheduled := false } :=
  ⟨landing.flushes, landing.handoffs, landing.alone, landing.front⟩

/-- With nothing in flight the queue may change. -/
theorem Landing.idle (landing : Landing s s.epoch) (mem : handoff ∈ s.handoffs) :
    handoff.generation ≠ s.epoch := by
  have alone := landing.alone
  rw [MeshIngress.inFlight, Nat.add_eq_zero_iff] at alone
  simpa using List.countP_eq_zero.mp alone.2 handoff mem

theorem Landing.runFlush (landing : Landing s generation) : Flight (s.runFlush generation) := by
  rw [MeshIngress.runFlush]
  split
  · next earlier => exact landing.past earlier
  · next now =>
    rw [not_not] at now
    subst now
    split
    · exact landing.clear
    · next api bound =>
      split
      · exact landing.clear
      · have flag : s.meshFlushScheduled = true := by
          have single := landing.single
          rw [landing.alone, if_pos rfl] at single
          by_contra off
          rw [if_neg off] at single
          cases single
        have alone := landing.alone
        refine ⟨landing.flushes, fun handoff mem => ?_, ?_, fun handoff mem now => ?_⟩
        · rcases List.mem_append.mp mem with before | new
          · exact landing.handoffs handoff before
          · rw [List.mem_singleton.mp new]
        · rw [MeshIngress.inFlight] at alone ⊢
          dsimp only
          rw [List.countP_append, List.countP_singleton, flag]
          simp only [beq_self_eq_true, if_true]
          omega
        · rcases List.mem_append.mp mem with before | new
          · exact landing.front handoff before now
          · obtain rfl := List.mem_singleton.mp new
            exact List.prefix_refl _

/-- Whatever a callback of the present epoch does to the queue, nothing is in flight after it. -/
theorem Landing.settled (landing : Landing s s.epoch) {next : MeshIngress}
    (epoch : next.epoch = s.epoch) (flushes : next.flushes = s.flushes)
    (handoffs : next.handoffs = s.handoffs) (flag : next.meshFlushScheduled = false) :
    Flight next where
  flushes := by rw [flushes, epoch]; exact landing.flushes
  handoffs := by rw [handoffs, epoch]; exact landing.handoffs
  single := by
    have alone := landing.alone
    rw [MeshIngress.inFlight] at alone ⊢
    rw [flushes, handoffs, epoch, flag]
    exact alone
  front handoff mem now := by
    rw [handoffs] at mem
    rw [epoch] at now
    exact absurd now (landing.idle mem)

theorem Landing.settle (landing : Landing s handoff.generation) (outcome : HandoffOutcome) :
    Flight (s.settle handoff outcome) := by
  by_cases current : handoff.generation = s.epoch
  · have now : Landing s s.epoch := current ▸ landing
    cases outcome with
    | success =>
      rw [MeshIngress.settle, MeshIngress.handoffSucceeded, if_neg (not_not.mpr current)]
      apply Flight.schedule
      exact now.settled rfl rfl rfl rfl
    | stale =>
      rw [MeshIngress.settle, MeshIngress.handoffFailed, if_neg (not_not.mpr current), if_pos rfl,
        MeshIngress.forget]
      split
      · exact now.settled rfl rfl rfl rfl
      · exact now.settled rfl rfl rfl rfl
    | failure =>
      rw [MeshIngress.settle, MeshIngress.handoffFailed, if_neg (not_not.mpr current),
        if_neg (by simp)]
      exact now.settled rfl rfl rfl rfl
  · have past := landing.past current
    cases outcome <;> simpa [MeshIngress.settle, MeshIngress.handoffSucceeded,
      MeshIngress.handoffFailed, current] using past

/-- A handoff of the present epoch settles with its batch at the front of the queue. -/
theorem Ledger.settle (ledger : Ledger s)
    (front : handoff.generation = s.epoch → handoff.batch <+: s.pendingMeshMessages)
    (outcome : HandoffOutcome) : Ledger (s.settle handoff outcome) := by
  by_cases now : handoff.generation = s.epoch
  · cases outcome with
    | success =>
      rw [MeshIngress.settle, MeshIngress.handoffSucceeded, if_neg (not_not.mpr now)]
      have removed := ledger.remove true (front now)
      exact Ledger.schedule
        { removed with }
    | stale =>
      rw [MeshIngress.settle, MeshIngress.handoffFailed, if_neg (not_not.mpr now), if_pos rfl,
        MeshIngress.forget]
      have removed := ledger.remove false (front now)
      split <;> exact
        { removed with }
    | failure =>
      rw [MeshIngress.settle, MeshIngress.handoffFailed, if_neg (not_not.mpr now), if_neg (by simp)]
      exact { ledger with }
  · cases outcome <;> simpa [MeshIngress.settle, MeshIngress.handoffSucceeded,
      MeshIngress.handoffFailed, now] using ledger

end Callbacks

/-! ## Runs -/

/-- Every step keeps the accounts and the flight. -/
theorem mesh_step {s s' : MeshIngress} {a : MeshAction} (ledger : Ledger s) (flight : Flight s)
    (taken : meshMachine.step s a = some s') : Ledger s' ∧ Flight s' := by
  cases a with
  | enqueueMeshMessage peerId content =>
    cases taken
    rw [MeshIngress.enqueueMeshMessage]
    split
    · exact ⟨ledger, flight⟩
    · next fits =>
      dsimp only
      split
      · exact ⟨ledger.accept fits, flight.accept⟩
      · exact ⟨(ledger.accept fits).schedule, flight.accept.schedule⟩
  | markAgentRunStarted =>
    cases taken
    exact ⟨{ ledger with },
      { flight with }⟩
  | markAgentSettled =>
    cases taken
    exact ⟨Ledger.schedule
        { ledger with },
      Flight.schedule { flight with }⟩
  | bindApi api =>
    cases taken
    have bound : Ledger { s with messageApi := api.or s.messageApi } :=
      { ledger with }
    have bound' : Flight { s with messageApi := api.or s.messageApi } :=
      { flight with }
    rw [MeshIngress.bindApi]
    dsimp only
    split
    · exact ⟨bound, bound'⟩
    · exact ⟨bound.schedule, bound'.schedule⟩
  | rebind api =>
    cases taken
    exact ⟨{ ledger with },
      { flight with }⟩
  | clearStaleContexts =>
    cases taken
    -- Everything in flight belongs to an earlier epoch now.
    have past : ∀ generation, generation ≤ s.epoch → generation ≠ s.epoch + 1 := by omega
    refine ⟨⟨rfl, fun _ => rfl, ?_, rfl, rfl⟩, fun g mem => ?_, fun handoff mem => ?_, ?_,
      fun handoff mem now => ?_⟩
    · exact ⟨Nat.zero_le _, Nat.zero_le _, fun _ => Nat.zero_le _, fun _ => Nat.zero_le _⟩
    · exact Nat.le_succ_of_le (flight.flushes g mem)
    · exact Nat.le_succ_of_le (flight.handoffs handoff mem)
    · rw [MeshIngress.inFlight, if_neg (by simp [MeshIngress.clearStaleContexts]),
        Nat.add_eq_zero_iff, List.countP_eq_zero, List.countP_eq_zero]
      exact ⟨fun g mem => by
          simpa [MeshIngress.clearStaleContexts] using past g (flight.flushes g mem),
        fun handoff mem => by
          simpa [MeshIngress.clearStaleContexts] using past _ (flight.handoffs handoff mem)⟩
    · exact absurd now (past _ (flight.handoffs handoff mem))
  | flush index =>
    obtain ⟨generation, queued, rfl⟩ := Option.map_eq_some_iff.mp taken
    refine ⟨?_, (flight.takeFlush queued).runFlush⟩
    rw [MeshIngress.runFlush]
    split
    · exact { ledger with }
    · split
      · exact { ledger with }
      · split <;>
          exact { ledger with }
  | settle index outcome =>
    obtain ⟨handoff, outstanding, rfl⟩ := Option.map_eq_some_iff.mp taken
    refine ⟨Ledger.settle ?_ ?_ outcome, (flight.takeHandoff outstanding).settle outcome⟩
    · exact { ledger with }
    · exact flight.front handoff (List.mem_of_getElem? outstanding)

theorem mesh_invariant {s : MeshIngress} (reached : meshMachine.Reachable s) :
    Ledger s ∧ Flight s := by
  apply Machine.ReachableUnder.invariant (I := fun s => Ledger s ∧ Flight s) _ _ reached
  · rintro s ⟨limits, rfl⟩
    exact ⟨ledger_new limits, flight_new limits⟩
  · intro s a s' inv _ taken
    exact mesh_step inv.1 inv.2 taken

/-- A message is delivered while another one arrives. -/
def deliverWhileArriving : List MeshAction :=
  [.bindApi (some 1), .enqueueMeshMessage "reviewer" "first", .flush 0,
    .enqueueMeshMessage "worker" "second", .settle 0 .success]

end OutpostPi.Session
