import OutpostPi.Lib.Machine
import OutpostPi.Lib.Indexed

/-!
# The relay transport and its connections

The transport opens relay clients from `start` and from the reconnect timer. Each opening awaits
a connect, and what follows the connect is written to fields shared by all of them: the current
client, its binding, the configuration and the timer. The functions below are the synchronous
parts between two awaits; `system` interleaves them in any order with `stop`, closing sockets
and changes of what the `isDisposed` of a start reports.

`Sound` says that there is a single live connection, opened for the last start, and that the
transport never stands still while it is started without one. It holds in every run whose steps
are in order (`sound_of_inOrder`). What keeps a run from it is a connect that ends late: after
the connect neither `start` nor `attemptReconnect` checks that the call it belongs to is still
the last one, and `attemptReconnect` does not close a client that has become current meanwhile
(`exists_unsound`).
-/

set_option autoImplicit false

namespace OutpostPi.Pi.RelayTransport

open OutpostPi.Lib

/-! ## State -/

/-- Relay URL, keypair and room of a start. -/
structure Config where
  relayUrl : String
  keypair : String
  roomId : Option String
  deriving DecidableEq

/-- Which call awaits the connect of a client. A start is known by its number. -/
inductive Owner
  | start (epoch : Nat)
  | reconnect
  deriving DecidableEq

/-- The socket of a client. A connect that fails leaves it closed. -/
inductive Socket
  | connecting
  | opened
  | closed
  deriving DecidableEq

/-- A client with the arguments of its connect. -/
structure RelayClient where
  config : Config
  owner : Owner
  socket : Socket
  deriving DecidableEq

/-- The fields of the transport, with clients named by their position in the order of creation.
`disposed` lists the starts whose `isDisposed` reports true. `lastStart` holds the arguments of
the last start, none after a stop; no function reads it. -/
structure State where
  relay : Option Nat
  relayBinding : Option Nat
  relayUrl : Option String
  keypair : Option String
  roomId : Option String
  reconnectTimer : Bool
  stopping : Bool
  isDisposed : Option Nat
  starts : Nat
  disposed : List Nat
  clients : List RelayClient
  lastStart : Option Config
  deriving DecidableEq

namespace State

/-- The transport as it is created. -/
def created : State where
  relay := none
  relayBinding := none
  relayUrl := none
  keypair := none
  roomId := none
  reconnectTimer := false
  stopping := false
  isDisposed := none
  starts := 0
  disposed := []
  clients := []
  lastStart := none

/-- The relay URL where it is truthy, as each test of the source reads it. -/
def url (s : State) : Option String := s.relayUrl.filter fun url => url ≠ ""

/-- `status() === "disconnected"`. -/
def disconnected (s : State) : Bool := s.url.isNone

/-- What the installed `isDisposed` reports. -/
def disposedNow (s : State) : Bool := s.isDisposed.any fun epoch => s.disposed.contains epoch

/-- The client is bound and current, and the transport is neither stopping nor disposed. -/
def connectionIsCurrent (s : State) (i : Nat) : Bool :=
  s.relayBinding == some i && s.relay == some i && !s.stopping && !s.disposedNow

/-- The socket of a client changes. -/
def setSocket (s : State) (i : Nat) (socket : Socket) : State :=
  match s.clients[i]? with
  | none => s
  | some client => { s with clients := s.clients.set i { client with socket := socket } }

/-- `close()` of a client. -/
def close (s : State) (i : Nat) : State := s.setSocket i .closed

/-- Listen to a client. -/
def bindRelay (s : State) (i : Nat) : State := { s with relayBinding := some i }

/-- Stop listening to a client. -/
def unbindRelay (s : State) (i : Nat) : State :=
  if s.relayBinding = some i then { s with relayBinding := none } else s

/-- Forget the configuration. -/
def forget (s : State) : State := { s with relayUrl := none, keypair := none, roomId := none }

/-- Set the timer, unless it is set or the transport is not started. -/
def scheduleReconnect (s : State) : State :=
  if s.reconnectTimer then s
  else if s.url.isNone || s.keypair.isNone then s
  else if s.disconnected then s
  else { s with reconnectTimer := true }

/-- The close event of a bound client. -/
def onRelayClose (s : State) (i : Nat) : State :=
  if !s.connectionIsCurrent i || s.url.isNone then s
  else { s.unbindRelay i with relay := none }.scheduleReconnect

/-- `attemptReconnect` up to its connect. -/
def attemptReconnect (s : State) : State :=
  match s.url, s.keypair with
  | some relayUrl, some keypair =>
    { s with clients := s.clients ++ [⟨⟨relayUrl, keypair, s.roomId⟩, .reconnect, .connecting⟩] }
  | _, _ => s

/-- `attemptReconnect` after a connect that failed. -/
def attemptFailed (s : State) (i : Nat) : State :=
  if (s.close i).disconnected then s.close i else (s.close i).scheduleReconnect

/-- `attemptReconnect` after a connect that succeeded. A client that is current already is
neither unbound nor closed. -/
def attemptConnected (s : State) (i : Nat) : State :=
  if s.disconnected || s.disposedNow then s.close i
  else { s with relay := some i }.bindRelay i

/-- `start` up to its connect. -/
def start (s : State) (input : Config) : State :=
  { s with
    stopping := false
    reconnectTimer := false
    relayUrl := some input.relayUrl
    keypair := some input.keypair
    roomId := input.roomId
    isDisposed := some s.starts
    starts := s.starts + 1
    clients := s.clients ++ [⟨input, .start s.starts, .connecting⟩]
    lastStart := some input }

/-- `start` after a connect that failed. -/
def startFailed (s : State) (i epoch : Nat) (roomAlreadyOpen : Bool) : State :=
  if s.disposed.contains epoch then (s.close i).forget
  else if roomAlreadyOpen then (s.close i).forget
  else { s.close i with relay := none }.scheduleReconnect

/-- Unbind and close the client that is current. -/
def discard (s : State) : State :=
  match s.relay with
  | none => s
  | some current => (s.unbindRelay current).close current

/-- `start` after a connect that succeeded. -/
def startConnected (s : State) (i epoch : Nat) : State :=
  if s.disposed.contains epoch then (s.close i).forget
  else { s.discard with relay := some i }.bindRelay i

/-- Close the current client and forget the configuration. -/
def stop (s : State) : State :=
  { { s with stopping := true, reconnectTimer := false }.discard.forget with
    relay := none
    lastStart := none }

/-- What the `isDisposed` of a start reports changes. -/
def setDisposed (s : State) (epoch : Nat) (disposed : Bool) : State :=
  { s with
    disposed :=
      if disposed then epoch :: s.disposed else s.disposed.filter fun other => other ≠ epoch }

end State

/-! ## Steps -/

/-- The calls of the transport and what it waits for. -/
inductive Action
  | start (input : Config)
  | stop
  /-- The connect of a client succeeds. -/
  | connected (i : Nat)
  /-- The connect of a client fails, with `RoomAlreadyOpenError` or otherwise. -/
  | failed (i : Nat) (roomAlreadyOpen : Bool)
  /-- The socket of a connected client closes. -/
  | closed (i : Nat)
  /-- The reconnect timer fires. -/
  | timer
  | setDisposed (epoch : Nat) (disposed : Bool)
  deriving DecidableEq

/-- One step of the transport. -/
def step (s : State) : Action → Option State
  | .start input => some (s.start input)
  | .stop => some s.stop
  | .connected i =>
    match s.clients[i]? with
    | some ⟨_, .start epoch, .connecting⟩ => some ((s.setSocket i .opened).startConnected i epoch)
    | some ⟨_, .reconnect, .connecting⟩ => some ((s.setSocket i .opened).attemptConnected i)
    | _ => none
  | .failed i roomAlreadyOpen =>
    match s.clients[i]? with
    | some ⟨_, .start epoch, .connecting⟩ => some (s.startFailed i epoch roomAlreadyOpen)
    | some ⟨_, .reconnect, .connecting⟩ => some (s.attemptFailed i)
    | _ => none
  | .closed i =>
    match s.clients[i]? with
    | some ⟨_, _, .opened⟩ => some ((s.close i).onRelayClose i)
    | _ => none
  | .timer =>
    if s.reconnectTimer then some { s with reconnectTimer := false }.attemptReconnect else none
  | .setDisposed epoch disposed => some (s.setDisposed epoch disposed)

/-- The transport under any order of calls and events. -/
def system : Machine State Action where
  Init s := s = .created
  step := step

/-! ## A single live connection -/

/-- The current client has an open socket. -/
def State.Connected (s : State) : Prop :=
  ∃ i ∈ s.relay, ∃ client ∈ s.clients[i]?, client.socket = .opened

instance (s : State) : Decidable s.Connected :=
  inferInstanceAs (Decidable (∃ i ∈ s.relay, ∃ client ∈ s.clients[i]?, client.socket = .opened))

/-- Every client whose connect has completed is closed, except one that is bound and current.
The current client was opened with the arguments of the last start, and there is none after a
stop. While started, not disposed and not connected, a reconnect timer or a connect is pending. -/
structure Sound (s : State) : Prop where
  live : ∀ (i : Nat) (client : RelayClient), s.clients[i]? = some client →
    client.socket = .opened → s.relay = some i ∧ s.relayBinding = some i
  current : ∀ i : Nat, s.relay = some i → ∃ client : RelayClient, s.clients[i]? = some client ∧
    client.socket ≠ .connecting ∧ s.lastStart = some client.config
  pending : s.url.isSome = true → s.keypair.isSome = true → s.disposedNow = false →
    s.Connected ∨ s.reconnectTimer = true ∨
      ∃ client ∈ s.clients, client.socket = .connecting

/-- The current client, if there is one, is no longer open. -/
def State.Vacant (s : State) : Prop :=
  ∀ i ∈ s.relay, ∀ client ∈ s.clients[i]?, client.socket ≠ .opened

instance (s : State) : Decidable s.Vacant :=
  inferInstanceAs (Decidable (∀ i ∈ s.relay, ∀ client ∈ s.clients[i]?, client.socket ≠ .opened))

/-- A connect that succeeds leaves one live client: the client is closed at once, or it was opened
with the arguments of the last start and, on reconnect, finds no other client open. -/
def State.MayConnect (s : State) (client : RelayClient) : Prop :=
  match client.owner with
  | .start epoch => s.disposed.contains epoch = true ∨ s.lastStart = some client.config
  | .reconnect =>
    s.disconnected = true ∨ s.disposedNow = true ∨
      s.Vacant ∧ s.lastStart = some client.config

instance (s : State) : ∀ client, Decidable (s.MayConnect client)
  | ⟨config, .start epoch, _⟩ =>
    inferInstanceAs (Decidable (s.disposed.contains epoch = true ∨ s.lastStart = some config))
  | ⟨config, .reconnect, _⟩ =>
    inferInstanceAs (Decidable (s.disconnected = true ∨ s.disposedNow = true ∨
      s.Vacant ∧ s.lastStart = some config))

/-- A connect that fails drops no open client: a start that goes on to retry finds none. -/
def State.MayFail (s : State) (client : RelayClient) (roomAlreadyOpen : Bool) : Prop :=
  match client.owner with
  | .start epoch => s.disposed.contains epoch = true ∨ roomAlreadyOpen = true ∨ s.Vacant
  | .reconnect => True

instance (s : State) : ∀ client roomAlreadyOpen, Decidable (s.MayFail client roomAlreadyOpen)
  | ⟨_, .start epoch, _⟩, roomAlreadyOpen =>
    inferInstanceAs (Decidable
      (s.disposed.contains epoch = true ∨ roomAlreadyOpen = true ∨ s.Vacant))
  | ⟨_, .reconnect, _⟩, _ => .isTrue trivial

/-- A start is called only while no client with other arguments is current, a connect ends only
as it may, and a disposal is revoked only while the transport is stopped. -/
def InOrder (s : State) : Action → Prop
  | .start input => ∀ i ∈ s.relay, ∀ client ∈ s.clients[i]?, client.config = input
  | .connected i => ∀ client ∈ s.clients[i]?, s.MayConnect client
  | .failed i roomAlreadyOpen => ∀ client ∈ s.clients[i]?, s.MayFail client roomAlreadyOpen
  | .setDisposed epoch disposed =>
    disposed = false → s.isDisposed = some epoch → s.url = none
  | _ => True

instance : ∀ s a, Decidable (InOrder s a)
  | s, .start input =>
    inferInstanceAs (Decidable (∀ i ∈ s.relay, ∀ client ∈ s.clients[i]?, client.config = input))
  | s, .connected i =>
    inferInstanceAs (Decidable (∀ client ∈ s.clients[i]?, s.MayConnect client))
  | s, .failed i roomAlreadyOpen =>
    inferInstanceAs (Decidable (∀ client ∈ s.clients[i]?, s.MayFail client roomAlreadyOpen))
  | s, .setDisposed epoch disposed =>
    inferInstanceAs (Decidable (disposed = false → s.isDisposed = some epoch → s.url = none))
  | _, .stop => .isTrue trivial
  | _, .closed _ => .isTrue trivial
  | _, .timer => .isTrue trivial

variable {s s' : State} {i : Nat} {client : RelayClient} {socket : Socket}

/-! ## Sockets -/

/-- Only the socket of the client changes. -/
theorem setSocket_eq (found : s.clients[i]? = some client) :
    s.setSocket i socket =
      { s with clients := s.clients.set i { client with socket := socket } } := by
  rw [State.setSocket, found]

/-- The configuration and the timer of a state decide what is pending; so do its clients. -/
structure Steady (s : State) : Prop where
  paired : s.relayUrl.isSome = s.keypair.isSome
  running : s.url.isSome = true → s.stopping = false

/-- A timer is set wherever the transport is started. -/
theorem reconnectTimer_scheduleReconnect (s : State) (started : s.url.isSome = true)
    (identified : s.keypair.isSome = true) : s.scheduleReconnect.reconnectTimer = true := by
  have url : s.url.isNone = false := by simpa using started
  have key : s.keypair.isNone = false := by simpa using identified
  rw [State.scheduleReconnect]
  split
  · next set => exact set
  · simp [url, key, State.disconnected]

/-- Scheduling a reconnect changes the timer only. -/
theorem scheduleReconnect_eq (s : State) :
    ∃ timer, s.scheduleReconnect = { s with reconnectTimer := timer } := by
  unfold State.scheduleReconnect
  split
  · exact ⟨_, rfl⟩
  · split
    · exact ⟨_, rfl⟩
    · split <;> exact ⟨_, rfl⟩

/-- Unbinding changes the binding only. -/
theorem unbindRelay_eq (s : State) (i : Nat) :
    ∃ binding, s.unbindRelay i = { s with relayBinding := binding } := by
  unfold State.unbindRelay
  split <;> exact ⟨_, rfl⟩

/-- Discarding the current client closes it and leaves every other client as it was. -/
theorem State.discard_eq (s : State) :
    ∃ binding clients,
      s.discard = { s with relayBinding := binding, clients := clients } ∧
        ∀ (j : Nat) (client : RelayClient),
          (clients[j]? = some client →
            s.relay ≠ some j ∧ s.clients[j]? = some client ∨ client.socket = .closed) ∧
          (s.relay ≠ some j → s.clients[j]? = some client → clients[j]? = some client) := by
  unfold State.discard
  split
  · next vacant =>
    refine ⟨s.relayBinding, s.clients, rfl, fun j client => ⟨fun here => Or.inl ⟨?_, here⟩, ?_⟩⟩
    · rw [vacant]
      simp
    · exact fun _ here => here
  · next r current =>
    obtain ⟨binding, unbound⟩ := unbindRelay_eq s r
    rw [unbound, State.close, State.setSocket]
    dsimp only
    split
    · next missing =>
      refine ⟨binding, s.clients, rfl, fun j client => ⟨fun here => Or.inl ⟨?_, here⟩, ?_⟩⟩
      · rintro same
        cases current.symm.trans same
        cases missing.symm.trans here
      · exact fun _ here => here
    · next old found =>
      refine ⟨binding, _, rfl, fun j client => ⟨fun here => ?_, fun distinct here => ?_⟩⟩
      · rcases of_getElem?_set here with ⟨-, rfl⟩ | ⟨distinct, before⟩
        · exact Or.inr rfl
        · refine Or.inl ⟨fun same => distinct ?_, before⟩
          cases current.symm.trans same
          rfl
      · have other : r ≠ j := by
          rintro rfl
          exact distinct current
        rw [List.getElem?_set_ne other]
        exact here

/-- A client that is not current ends its connect, or the current one its connection, without
another becoming current. -/
theorem live_set (sound : Sound s) (client : RelayClient) (ended : socket ≠ .opened)
    (clients : s'.clients = s.clients.set i { client with socket := socket })
    (relay : s'.relay = s.relay) (binding : s'.relayBinding = s.relayBinding) :
    ∀ (j : Nat) (other : RelayClient), s'.clients[j]? = some other →
      other.socket = .opened → s'.relay = some j ∧ s'.relayBinding = some j := by
  intro j other here opened
  rw [clients] at here
  rcases of_getElem?_set here with ⟨-, rfl⟩ | ⟨-, before⟩
  · exact absurd opened ended
  · rw [relay, binding]
    exact sound.live j other before opened

/-- The current client stays one of the last start. -/
theorem current_set (sound : Sound s) (found : s.clients[i]? = some client)
    (ended : socket ≠ .connecting)
    (clients : s'.clients = s.clients.set i { client with socket := socket })
    (relay : s'.relay = s.relay) (lastStart : s'.lastStart = s.lastStart) :
    ∀ j : Nat, s'.relay = some j → ∃ other : RelayClient, s'.clients[j]? = some other ∧
      other.socket ≠ .connecting ∧ s'.lastStart = some other.config := by
  intro j at_
  rw [relay] at at_
  obtain ⟨other, before, settled, config⟩ := sound.current j at_
  rw [clients, lastStart]
  by_cases same : j = i
  · subst same
    cases found.symm.trans before
    exact ⟨_, getElem?_set_of_some found, ended, config⟩
  · rw [List.getElem?_set_ne (Ne.symm same)]
    exact ⟨other, before, settled, config⟩

/-! ## The steps -/

/-- A new transport is sound. -/
theorem sound_created : Sound .created := by
  constructor
  all_goals simp [State.created]

theorem steady_created : Steady .created := ⟨rfl, by simp [State.created]⟩

/-- A start while no other configuration is current keeps the transport sound. -/
theorem sound_start {input : Config} (sound : Sound s) (inOrder : InOrder s (.start input)) :
    Sound (s.start input) := by
  constructor
  case live =>
    intro j other here opened
    rcases of_getElem?_concat here with ⟨-, rfl⟩ | ⟨-, before⟩
    · cases opened
    · exact sound.live j other before opened
  case current =>
    intro j at_
    obtain ⟨other, before, settled, -⟩ := sound.current j at_
    refine ⟨other, ?_, settled, congrArg some (inOrder j at_ other before).symm⟩
    exact (List.getElem?_append_left (List.getElem?_eq_some_iff.mp before).1).trans before
  case pending =>
    intro _ _ _
    exact Or.inr (Or.inr ⟨_, List.mem_append_right _ List.mem_cons_self, rfl⟩)

/-- A stop closes the client that is current. -/
theorem sound_stop (sound : Sound s) : Sound s.stop := by
  obtain ⟨binding, clients, discarded, kept⟩ :=
    State.discard_eq { s with stopping := true, reconnectTimer := false }
  constructor
  case live =>
    intro j other here opened
    rw [State.stop, discarded] at here
    rcases (kept j other).1 here with ⟨distinct, before⟩ | closed
    · exact absurd (sound.live j other before opened).1 distinct
    · rw [closed] at opened
      cases opened
  case current => rintro j ⟨⟩
  case pending => rintro ⟨⟩

/-- A connect that ends with its client closed, and the transport stopped or disposed. -/
theorem sound_dropped (sound : Sound s) (found : s.clients[i]? = some client)
    (clients : s'.clients = s.clients.set i { client with socket := .closed })
    (relay : s'.relay = s.relay) (binding : s'.relayBinding = s.relayBinding)
    (lastStart : s'.lastStart = s.lastStart)
    (ended : s'.url = none ∨ s'.disposedNow = true) : Sound s' := by
  constructor
  case live => exact live_set sound client (by simp) clients relay binding
  case current => exact current_set sound found (by simp) clients relay lastStart
  case pending =>
    intro started _ active
    rcases ended with stopped | disposed
    · rw [stopped] at started
      cases started
    · rw [disposed] at active
      cases active

/-- A client that is closed at once was never open. -/
theorem close_opened (found : s.clients[i]? = some client) :
    (s.setSocket i .opened).close i =
      { s with clients := s.clients.set i { client with socket := .closed } } := by
  rw [setSocket_eq found, State.close, setSocket_eq (getElem?_set_of_some found)]
  simp only [List.set_set]

variable {config : Config} {epoch : Nat}

/-- The connect of the last start, or of one that is disposed, succeeds. -/
theorem sound_startConnected (sound : Sound s)
    (found : s.clients[i]? = some ⟨config, .start epoch, .connecting⟩)
    (inOrder : s.disposed.contains epoch = true ∨ s.lastStart = some config) :
    Sound ((s.setSocket i .opened).startConnected i epoch) := by
  have disposed : (s.setSocket i .opened).disposed = s.disposed := by rw [setSocket_eq found]
  rw [State.startConnected, disposed]
  split
  · rw [close_opened found]
    exact sound_dropped sound found rfl rfl rfl rfl (Or.inl rfl)
  · next wanted =>
    have last := inOrder.resolve_left wanted
    obtain ⟨binding, clients, discarded, kept⟩ := State.discard_eq (s.setSocket i .opened)
    have notCurrent : s.relay ≠ some i := by
      intro current
      obtain ⟨other, before, settled, -⟩ := sound.current i current
      cases found.symm.trans before
      exact settled rfl
    rw [discarded]
    rw [setSocket_eq found] at kept ⊢
    have here : clients[i]? = some ⟨config, .start epoch, .opened⟩ :=
      (kept i _).2 notCurrent (getElem?_set_of_some found)
    constructor
    case live =>
      intro j other there opened
      rcases (kept j other).1 there with ⟨distinct, before⟩ | closed
      · rcases of_getElem?_set before with ⟨rfl, -⟩ | ⟨-, before⟩
        · exact ⟨rfl, rfl⟩
        · -- an open client would have been the current one
          exact absurd (sound.live j other before opened).1 distinct
      · rw [closed] at opened
        cases opened
    case current =>
      rintro j ⟨⟩
      exact ⟨_, here, by simp, last⟩
    case pending =>
      intro _ _ _
      exact Or.inl ⟨i, rfl, _, here, rfl⟩

/-- A reconnect succeeds while no client is open, or when it is not wanted any more. -/
theorem sound_attemptConnected (sound : Sound s)
    (found : s.clients[i]? = some ⟨config, .reconnect, .connecting⟩)
    (inOrder : s.disconnected = true ∨ s.disposedNow = true ∨
      s.Vacant ∧ s.lastStart = some config) :
    Sound ((s.setSocket i .opened).attemptConnected i) := by
  have flags : ((s.setSocket i .opened).disconnected ||
      (s.setSocket i .opened).disposedNow) = (s.disconnected || s.disposedNow) := by
    rw [setSocket_eq found]
    rfl
  rw [State.attemptConnected, flags]
  split
  · next ended =>
    rw [close_opened found]
    refine sound_dropped sound found rfl rfl rfl rfl ?_
    rcases Bool.or_eq_true_iff.mp ended with stopped | disposed
    · exact Or.inl (Option.isNone_iff_eq_none.mp stopped)
    · exact Or.inr disposed
  · next wanted =>
    obtain ⟨stopped, disposed⟩ := not_or.mp (mt Bool.or_eq_true_iff.mpr wanted)
    obtain ⟨vacant, last⟩ := (inOrder.resolve_left stopped).resolve_left disposed
    rw [setSocket_eq found]
    have here : (s.clients.set i ⟨config, .reconnect, .opened⟩)[i]? =
        some ⟨config, .reconnect, .opened⟩ := getElem?_set_of_some found
    constructor
    case live =>
      intro j other there opened
      rcases of_getElem?_set there with ⟨rfl, -⟩ | ⟨-, before⟩
      · exact ⟨rfl, rfl⟩
      · have current := (sound.live j other before opened).1
        exact absurd opened (vacant j current other before)
    case current =>
      rintro j ⟨⟩
      exact ⟨_, here, by simp, last⟩
    case pending =>
      intro _ _ _
      exact Or.inl ⟨i, rfl, _, here, rfl⟩

/-- No client is open while none is current or the current one has closed. -/
theorem not_opened_of_vacant (sound : Sound s) (vacant : s.Vacant) {j : Nat}
    {other : RelayClient} (found : s.clients[j]? = some other) : other.socket ≠ .opened :=
  fun opened => vacant j (sound.live j other found opened).1 other found opened

/-- A start fails while no client is open, or is given up. -/
theorem sound_startFailed {roomAlreadyOpen : Bool} (sound : Sound s)
    (found : s.clients[i]? = some ⟨config, .start epoch, .connecting⟩)
    (inOrder : s.disposed.contains epoch = true ∨ roomAlreadyOpen = true ∨ s.Vacant) :
    Sound (s.startFailed i epoch roomAlreadyOpen) := by
  rw [State.startFailed, State.close, setSocket_eq found]
  split
  · exact sound_dropped sound found rfl rfl rfl rfl (Or.inl rfl)
  · next wanted =>
    split
    · exact sound_dropped sound found rfl rfl rfl rfl (Or.inl rfl)
    · next retried =>
      have vacant := (inOrder.resolve_left wanted).resolve_left retried
      obtain ⟨timer, scheduled⟩ := scheduleReconnect_eq { s with
        clients := s.clients.set i ⟨config, .start epoch, .closed⟩
        relay := none }
      constructor
      case live =>
        intro j other here opened
        rw [scheduled] at here
        rcases of_getElem?_set here with ⟨-, rfl⟩ | ⟨-, before⟩
        · cases opened
        · exact absurd opened (not_opened_of_vacant sound vacant before)
      case current =>
        intro j current
        rw [scheduled] at current
        cases current
      case pending =>
        intro started identified _
        rw [scheduled] at started identified
        exact Or.inr (Or.inl (reconnectTimer_scheduleReconnect _ started identified))

/-- A reconnect fails and is tried again. -/
theorem sound_attemptFailed (sound : Sound s)
    (found : s.clients[i]? = some ⟨config, .reconnect, .connecting⟩) :
    Sound (s.attemptFailed i) := by
  rw [State.attemptFailed, State.close, setSocket_eq found]
  split
  · next stopped =>
    exact sound_dropped sound found rfl rfl rfl rfl
      (Or.inl (Option.isNone_iff_eq_none.mp stopped))
  · obtain ⟨timer, scheduled⟩ := scheduleReconnect_eq { s with
      clients := s.clients.set i ⟨config, .reconnect, .closed⟩ }
    constructor
    case live =>
      rw [scheduled]
      exact live_set sound ⟨config, .reconnect, .connecting⟩ (by simp) rfl rfl rfl
    case current =>
      rw [scheduled]
      exact current_set sound found (by simp) rfl rfl rfl
    case pending =>
      intro started identified _
      rw [scheduled] at started identified
      exact Or.inr (Or.inl (reconnectTimer_scheduleReconnect _ started identified))

/-- The current client closes, and a reconnect is scheduled. -/
theorem sound_closed (sound : Sound s) (steady : Steady s)
    (found : s.clients[i]? = some client) (opened : client.socket = .opened) :
    Sound ((s.close i).onRelayClose i) := by
  obtain ⟨relay, binding⟩ := sound.live i client found opened
  rw [State.close, setSocket_eq found, State.onRelayClose]
  -- no client but the current one is open
  have others : ∀ (j : Nat) (other : RelayClient),
      (s.clients.set i { client with socket := .closed })[j]? = some other →
        other.socket ≠ .opened := by
    intro j other here still
    rcases of_getElem?_set here with ⟨-, rfl⟩ | ⟨distinct, before⟩
    · cases still
    · exact distinct (Option.some.inj ((sound.live j other before still).1.symm.trans relay))
  split
  · next ignored =>
    constructor
    case live => exact fun j other here still => absurd still (others j other here)
    case current =>
      exact current_set sound found (by simp) rfl rfl rfl
    case pending =>
      intro started identified active
      exfalso
      have started : s.url.isSome = true := started
      have url : s.url.isNone = false := by simpa using started
      have running : s.stopping = false := steady.running started
      have wanted : s.disposedNow = false := active
      have isCurrent : s.connectionIsCurrent i = true := by
        simp [State.connectionIsCurrent, relay, binding, running, wanted]
      change (!s.connectionIsCurrent i || s.url.isNone) = true at ignored
      simp [isCurrent, url] at ignored
  · obtain ⟨binding, unbound⟩ := unbindRelay_eq
      { s with clients := s.clients.set i { client with socket := .closed } } i
    rw [unbound]
    obtain ⟨timer, scheduled⟩ := scheduleReconnect_eq { s with
      clients := s.clients.set i { client with socket := .closed }
      relay := none
      relayBinding := binding }
    constructor
    case live =>
      intro j other here still
      rw [scheduled] at here
      exact absurd still (others j other here)
    case current =>
      intro j current
      rw [scheduled] at current
      cases current
    case pending =>
      intro started identified _
      rw [scheduled] at started identified
      exact Or.inr (Or.inl (reconnectTimer_scheduleReconnect _ started identified))

/-- The timer fires, and a connect is pending instead. -/
theorem sound_timer (sound : Sound s) :
    Sound { s with reconnectTimer := false }.attemptReconnect := by
  unfold State.attemptReconnect
  dsimp only
  split
  · constructor
    case live =>
      intro j other here opened
      rcases of_getElem?_concat here with ⟨-, rfl⟩ | ⟨-, before⟩
      · cases opened
      · exact sound.live j other before opened
    case current =>
      intro j current
      obtain ⟨other, before, settled, config⟩ := sound.current j current
      refine ⟨other, ?_, settled, config⟩
      exact (List.getElem?_append_left (List.getElem?_eq_some_iff.mp before).1).trans before
    case pending =>
      intro _ _ _
      exact Or.inr (Or.inr ⟨_, List.mem_append_right _ List.mem_cons_self, rfl⟩)
  · next missing =>
    refine ⟨sound.live, sound.current, fun started identified _ => ?_⟩
    obtain ⟨url, url'⟩ := Option.isSome_iff_exists.mp started
    obtain ⟨key, key'⟩ := Option.isSome_iff_exists.mp identified
    exact absurd key' (missing url key url')

/-- A start becomes disposed, or the disposal of another one is revoked. -/
theorem sound_setDisposed {disposed : Bool} (sound : Sound s)
    (inOrder : InOrder s (.setDisposed epoch disposed)) : Sound (s.setDisposed epoch disposed) := by
  refine ⟨sound.live, sound.current, fun started identified active => ?_⟩
  refine sound.pending started identified ?_
  change (s.isDisposed.any fun other =>
    (if disposed then epoch :: s.disposed
      else s.disposed.filter fun other => other ≠ epoch).contains other) = false at active
  change (s.isDisposed.any fun other => s.disposed.contains other) = false
  cases installed : s.isDisposed with
  | none => rfl
  | some current =>
    rw [installed, Option.any_some] at active
    rw [Option.any_some]
    cases disposed with
    | true =>
      simp only [if_true, List.contains_cons, Bool.or_eq_false_iff] at active
      exact active.2
    | false =>
      -- the installed flag is another one, since the transport is started
      have other : current ≠ epoch := by
        rintro rfl
        have stopped : s.url = none := inOrder rfl installed
        have started : s.url.isSome = true := started
        rw [stopped] at started
        cases started
      simpa [other] using active

/-! ## The configuration -/

/-- Nothing of the configuration changes. -/
structure SameConfig (s s' : State) : Prop where
  relayUrl : s'.relayUrl = s.relayUrl
  keypair : s'.keypair = s.keypair
  stopping : s'.stopping = s.stopping

theorem SameConfig.trans {s'' : State} (first : SameConfig s s') (second : SameConfig s' s'') :
    SameConfig s s'' :=
  ⟨second.relayUrl.trans first.relayUrl, second.keypair.trans first.keypair,
    second.stopping.trans first.stopping⟩

/-- What changes no configuration keeps it steady. -/
theorem Steady.congr (steady : Steady s) (same : SameConfig s s') : Steady s' := by
  obtain ⟨url, key, stopping⟩ := same
  constructor
  · rw [url, key]
    exact steady.paired
  · rw [State.url, url, stopping]
    exact steady.running

/-- A stopped transport has no configuration. -/
theorem steady_forget (s : State) : Steady s.forget := ⟨rfl, by simp [State.forget, State.url]⟩

theorem sameConfig_setSocket (s : State) (i : Nat) (socket : Socket) :
    SameConfig s (s.setSocket i socket) := by
  unfold State.setSocket
  split <;> exact ⟨rfl, rfl, rfl⟩

theorem sameConfig_scheduleReconnect (s : State) : SameConfig s s.scheduleReconnect := by
  obtain ⟨timer, scheduled⟩ := scheduleReconnect_eq s
  rw [scheduled]
  exact ⟨rfl, rfl, rfl⟩

theorem sameConfig_onRelayClose (s : State) (i : Nat) : SameConfig s (s.onRelayClose i) := by
  unfold State.onRelayClose
  split
  · exact ⟨rfl, rfl, rfl⟩
  · refine SameConfig.trans ?_ (sameConfig_scheduleReconnect _)
    unfold State.unbindRelay
    split <;> exact ⟨rfl, rfl, rfl⟩

theorem steady_startConnected (steady : Steady s) : Steady (s.startConnected i epoch) := by
  unfold State.startConnected
  split
  · exact steady_forget _
  · obtain ⟨binding, clients, discarded, -⟩ := s.discard_eq
    rw [discarded]
    exact steady.congr ⟨rfl, rfl, rfl⟩

theorem steady_startFailed {roomAlreadyOpen : Bool} (steady : Steady s) :
    Steady (s.startFailed i epoch roomAlreadyOpen) := by
  unfold State.startFailed
  split
  · exact steady_forget _
  · split
    · exact steady_forget _
    · have closed := sameConfig_setSocket s i .closed
      refine steady.congr (SameConfig.trans ?_ (sameConfig_scheduleReconnect _))
      exact { closed with }

theorem steady_attemptConnected (steady : Steady s) : Steady (s.attemptConnected i) := by
  unfold State.attemptConnected
  split
  · exact steady.congr (sameConfig_setSocket s i .closed)
  · exact steady.congr ⟨rfl, rfl, rfl⟩

theorem steady_attemptFailed (steady : Steady s) : Steady (s.attemptFailed i) := by
  have closed := sameConfig_setSocket s i .closed
  unfold State.attemptFailed
  split
  · exact steady.congr closed
  · exact steady.congr (closed.trans (sameConfig_scheduleReconnect _))

/-- Every step keeps the configuration steady. -/
theorem steady_step {a : Action} (steady : Steady s) (taken : step s a = some s') :
    Steady s' := by
  cases a with
  | start input =>
    cases taken
    exact ⟨rfl, fun _ => rfl⟩
  | stop =>
    cases taken
    exact ⟨rfl, by simp [State.stop, State.forget, State.url]⟩
  | connected i =>
    have opened := steady.congr (sameConfig_setSocket s i .opened)
    simp only [step] at taken
    split at taken
    · cases taken
      exact steady_startConnected opened
    · cases taken
      exact steady_attemptConnected opened
    · cases taken
  | failed i roomAlreadyOpen =>
    simp only [step] at taken
    split at taken
    · cases taken
      exact steady_startFailed steady
    · cases taken
      exact steady_attemptFailed steady
    · cases taken
  | closed i =>
    simp only [step] at taken
    split at taken
    · cases taken
      exact steady.congr
        ((sameConfig_setSocket s i .closed).trans (sameConfig_onRelayClose _ i))
    · cases taken
  | timer =>
    simp only [step] at taken
    obtain ⟨_, rfl⟩ := Machine.of_guard taken
    unfold State.attemptReconnect
    dsimp only
    split <;> exact steady.congr ⟨rfl, rfl, rfl⟩
  | setDisposed epoch disposed =>
    cases taken
    exact steady.congr ⟨rfl, rfl, rfl⟩

/-! ## Runs -/

/-- Every step in order keeps the transport sound. -/
theorem sound_step {a : Action} (sound : Sound s) (steady : Steady s) (inOrder : InOrder s a)
    (taken : step s a = some s') : Sound s' := by
  cases a with
  | start input =>
    cases taken
    exact sound_start sound inOrder
  | stop =>
    cases taken
    exact sound_stop sound
  | connected i =>
    simp only [step] at taken
    split at taken
    · next config epoch found =>
      cases taken
      exact sound_startConnected sound found (inOrder _ found)
    · next config found =>
      cases taken
      exact sound_attemptConnected sound found (inOrder _ found)
    · cases taken
  | failed i roomAlreadyOpen =>
    simp only [step] at taken
    split at taken
    · next config epoch found =>
      cases taken
      exact sound_startFailed sound found (inOrder _ found)
    · next config found =>
      cases taken
      exact sound_attemptFailed sound found
    · cases taken
  | closed i =>
    simp only [step] at taken
    split at taken
    · next config owner found =>
      cases taken
      exact sound_closed sound steady found rfl
    · cases taken
  | timer =>
    simp only [step] at taken
    obtain ⟨_, rfl⟩ := Machine.of_guard taken
    exact sound_timer sound
  | setDisposed epoch disposed =>
    cases taken
    exact sound_setDisposed sound inOrder

/-- In every run whose steps are in order the transport keeps a single live connection. -/
theorem sound_of_inOrder (s : State) (reached : system.ReachableUnder InOrder s) : Sound s := by
  refine (reached.invariant (I := fun t => Sound t ∧ Steady t) ?_ ?_).1
  · rintro t rfl
    exact ⟨sound_created, steady_created⟩
  · rintro t a t' ⟨sound, steady⟩ inOrder taken
    exact ⟨sound_step sound steady inOrder taken, steady_step steady taken⟩

/-! ## Runs on fixed inputs -/

/-- Two configurations that differ in the room. -/
def firstConfig : Config := ⟨"wss://relay", "key", some "room-1"⟩

/-- The same relay and key with another room. -/
def secondConfig : Config := ⟨"wss://relay", "key", some "room-2"⟩

/-- A connection that closes and is opened again, a stop, and a start elsewhere. -/
def orderlyRun : List Action :=
  [.start firstConfig, .failed 0 false, .timer, .connected 1, .closed 1, .timer, .connected 2,
    .stop, .start secondConfig, .connected 3]

/-- The last client is current, and the transport is sound. -/
theorem sound_of_inOrder_restart : ∃ s,
    system.exec .created orderlyRun = some s ∧ s.relay = some 3 ∧ Sound s := by
  have meets : system.Meets InOrder .created orderlyRun := by decide +kernel
  have ran : (system.exec .created orderlyRun).any (fun s => decide (s.relay = some 3)) = true := by
    decide +kernel
  obtain ⟨s, executed, facts⟩ := (Option.any_eq_true _ _).mp ran
  exact ⟨s, executed, of_decide_eq_true facts,
    sound_of_inOrder s ⟨_, rfl, Machine.runsTo_of_exec meets executed⟩⟩

/-- A reconnect attempt that is in flight across a stop and a start commits after the start. -/
def lateAttemptRun : List Action :=
  [.start firstConfig, .connected 0, .closed 0, .timer, .stop, .start firstConfig, .connected 2,
    .connected 1]

/-- A start in flight commits after a stop. -/
def lateStartRun : List Action := [.start firstConfig, .stop, .connected 0]

/-- A start in flight fails after a later start has connected. -/
def lateFailureRun : List Action :=
  [.start firstConfig, .start secondConfig, .connected 1, .failed 0 false]

/-- A start in flight connects after a later one with another room. -/
def overtakenRun : List Action :=
  [.start firstConfig, .start secondConfig, .connected 1, .connected 0]

/-- An open client is not the current one, or the current one is not of the last start. -/
def State.astray (s : State) : Bool :=
  ((List.range s.clients.length).any fun i =>
    s.clients[i]?.any fun client => client.socket = .opened ∧ s.relay ≠ some i) ||
  s.relay.any fun i => s.clients[i]?.any fun client => s.lastStart ≠ some client.config

/-- A state is not sound if a client is astray in it. -/
theorem not_sound_of_astray (astray : s.astray = true) : ¬ Sound s := by
  intro sound
  rcases Bool.or_eq_true_iff.mp astray with leaks | foreign
  · obtain ⟨i, -, leaks⟩ := List.any_eq_true.mp leaks
    obtain ⟨client, found, facts⟩ := (Option.any_eq_true _ _).mp leaks
    obtain ⟨opened, other⟩ := of_decide_eq_true facts
    exact other (sound.live i client found opened).1
  · obtain ⟨i, current, foreign⟩ := (Option.any_eq_true _ _).mp foreign
    obtain ⟨client, found, facts⟩ := (Option.any_eq_true _ _).mp foreign
    obtain ⟨client', found', -, last⟩ := sound.current i current
    cases found'.symm.trans found
    exact of_decide_eq_true facts last

/-- The run ends in a state that is not sound. -/
def EndsUnsound (run : List Action) : Prop :=
  ∃ s, system.Reachable s ∧ system.exec .created run = some s ∧ ¬ Sound s

/-- Late ends of a connect leave a live client that is not current, or a current client that
does not belong to the last start. -/
theorem exists_unsound : EndsUnsound lateAttemptRun ∧ EndsUnsound lateStartRun ∧
    EndsUnsound lateFailureRun ∧ EndsUnsound overtakenRun := by
  have ends (run : List Action) (ran : (system.exec .created run).any State.astray = true) :
      EndsUnsound run := by
    obtain ⟨s, executed, astray⟩ := (Option.any_eq_true _ _).mp ran
    exact ⟨s, Machine.reachable_of_exec rfl executed, executed, not_sound_of_astray astray⟩
  exact ⟨ends _ (by decide +kernel), ends _ (by decide +kernel), ends _ (by decide +kernel),
    ends _ (by decide +kernel)⟩

end OutpostPi.Pi.RelayTransport
