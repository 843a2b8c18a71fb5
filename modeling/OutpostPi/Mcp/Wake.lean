import OutpostPi.Lib.Json
import OutpostPi.Lib.Machine
import OutpostPi.Mcp.BoundedInbox
import OutpostPi.Session.MeshAddress
import Mathlib.Algebra.Order.Ring.Int

/-!
# Wake coordination

A local message that finds no other local message unread wakes the session, unless the rate cap
suppresses the wake; then a timer for a second attempt is armed. The gate and the arming of the
timer each read the clock. Where the first read is inside the interval of the last wake and the
second one is past it, neither a wake nor a timer comes of the message.

`wake_coordination_iff` says that this is all that goes wrong: the coordination holds in every
state of a run exactly when no step of it `Strands` a message.
-/

set_option autoImplicit false

namespace OutpostPi.Mcp

open OutpostPi.Lib OutpostPi.Session

/-! ## The coordinator -/

/-- `WAKE_MIN_INTERVAL_MS`. -/
def wakeMinIntervalMs : Int := 5000

/-- A bare address, which is neither that of the relay nor has the label of another machine. -/
def isLocalPeerAddress (sender : String) : Bool :=
  if sender = "_relay" then false else (parseAddress sender).isNone

/-- A message of the inbox. -/
structure WakeMessage where
  sender : String
  body : Json
  id : String
  re : Option String
  sentAt : String

/-- The message comes from a peer on this PC. -/
def WakeMessage.isLocal (msg : WakeMessage) : Bool := isLocalPeerAddress msg.sender

/-- A wake, with the value of the clock at which it was released. -/
structure Wake where
  sender : String
  released : Int
  deriving DecidableEq

/-- What a coordinator is made with. -/
structure WakeConfig where
  sizeOf : WakeMessage → Nat
  limits : InboxLimits
  minIntervalMs : Int

/-- A coordinator with its inbox, its gate and its scheduler. `clock` is the last value that was
read. The fields after it are history: the wakes, whether there was one since the last drain, the
messages that arrived, those that were drained and the drop counts that were reported. -/
structure Coordinator where
  inbox : BoundedInbox WakeMessage
  lastReleaseMs : Option Int
  armed : Bool
  /-- The delay of the timer that is pending in the scheduler. -/
  timer : Option Int
  clock : Int
  wakes : List Wake
  woken : Bool
  pushed : List WakeMessage
  drained : List WakeMessage
  reported : Nat

namespace Coordinator

variable (config : WakeConfig) (c : Coordinator)

/-- The clock returns a value. -/
def now (t : Int) : Option Coordinator :=
  if c.clock ≤ t then some { c with clock := t } else none

/-- The gate is inside the interval of the last wake. -/
def suppressed (t : Int) : Bool :=
  match c.lastReleaseMs with
  | some last => decide (t - last < config.minIntervalMs)
  | none => false

/-- `retryAfterMs`. -/
def retryAfterMs (t : Int) : Option Int :=
  match c.lastReleaseMs with
  | some last =>
    let remaining := config.minIntervalMs - (t - last)
    if 0 < remaining then some remaining else none
  | none => none

/-- Release the gate and emit a wake. -/
def emit (t : Int) (sender : String) : Coordinator :=
  { c with lastReleaseMs := some t, wakes := c.wakes ++ [⟨sender, t⟩], woken := true }

/-- Arm the deferred check, unless it is armed or the interval is over by this value of the clock. -/
def armDeferred (t : Int) : Option Coordinator :=
  if c.armed then some c
  else
    (c.now t).map fun c =>
      match c.retryAfterMs config t with
      | some delay => { c with armed := true, timer := some delay }
      | none => c

/-- Ask the gate at one value of the clock, and arm the timer at another where it refuses. -/
def wakeOrDefer (sender : String) (first second : Int) : Option Coordinator :=
  (c.now first).bind fun c =>
    if c.suppressed config first then c.armDeferred config second
    else some (c.emit first sender)

/-- A local message is unread. -/
def hasLocalUnread : Bool := c.inbox.some WakeMessage.isLocal

/-- A message enters the inbox, from which it may push others out. -/
def push (msg : WakeMessage) : Coordinator :=
  { c with
    inbox := c.inbox.push config.sizeOf config.limits msg
    pushed := c.pushed ++ [msg] }

/-- A message arrives, and may wake the agent. -/
def onMessage (msg : WakeMessage) (first second : Int) : Option Coordinator :=
  let hadLocalUnread := c.hasLocalUnread
  let c := c.push config msg
  if !msg.isLocal then some c
  else if hadLocalUnread then some c
  else c.wakeOrDefer config msg.sender first second

/-- The timer has fired. -/
def fired : Coordinator := { c with armed := false, timer := none }

/-- The callback of the timer. -/
def recheck (first second : Int) : Option Coordinator :=
  match c.timer with
  | none => none
  | some _ =>
    match c.inbox.find WakeMessage.isLocal with
    | none => some c.fired
    | some message => c.fired.wakeOrDefer config message.sender first second

/-- `inbox.drain` followed by `onDrain`. -/
def drain : Coordinator :=
  { c with
    inbox := .empty
    drained := c.drained ++ c.inbox.items
    reported := c.reported + c.inbox.dropped
    armed := false
    timer := none
    woken := false }

end Coordinator

/-! ## Runs -/

/-- What can happen to the inbox. -/
inductive WakeStep
  | message (msg : WakeMessage) (first second : Int)
  | drain
  | timer (first second : Int)

/-- One step of the coordinator. -/
def Coordinator.step (config : WakeConfig) (c : Coordinator) : WakeStep → Option Coordinator
  | .message msg first second => c.onMessage config msg first second
  | .drain => some c.drain
  | .timer first second => c.recheck config first second

/-- A coordinator that nothing has happened to. -/
def Coordinator.new (clock : Int) : Coordinator :=
  ⟨.empty, none, false, none, clock, [], false, [], [], 0⟩

/-- Messages, drains and timers interleave freely. -/
def coordination (config : WakeConfig) : Machine Coordinator WakeStep where
  Init c := ∃ clock, c = .new clock
  step := Coordinator.step config

/-! ## Coordination -/

/-- A local message in the inbox has led to a wake since the last drain or will be checked again;
wakes are the interval apart and name local senders; and every message is retained, drained or
counted as dropped. -/
structure Coordinator.Coordinated (config : WakeConfig) (c : Coordinator) : Prop where
  heard : c.hasLocalUnread = true → c.woken = true ∨ c.timer.isSome = true
  apart : c.wakes.Pairwise fun a b => config.minIntervalMs ≤ b.released - a.released
  named : ∀ wake ∈ c.wakes, isLocalPeerAddress wake.sender = true
  sublist : (c.drained ++ c.inbox.items).Sublist c.pushed
  counted : c.pushed.length =
    (c.drained ++ c.inbox.items).length + (c.reported + c.inbox.dropped)

/-- The clock passes the end of the interval between the gate and the timer. -/
def Coordinator.slips (config : WakeConfig) (c : Coordinator) (first second : Int) : Bool :=
  decide (c.clock ≤ first) && decide (first ≤ second) &&
    c.suppressed config first && !c.suppressed config second

/-- The clock slips while a local message is retained that no wake has announced and no timer will
announce. -/
def Coordinator.strands (config : WakeConfig) (c : Coordinator) : WakeStep → Bool
  | .message msg first second =>
    msg.isLocal && decide (config.sizeOf msg ≤ config.limits.maxBytes) && !c.hasLocalUnread &&
      !c.woken && !c.armed && c.slips config first second
  | .drain => false
  | .timer first second =>
    c.timer.isSome && c.hasLocalUnread && !c.woken && c.slips config first second

/-- What holds in every run. -/
structure Coordinator.Sound (config : WakeConfig) (c : Coordinator) : Prop where
  armed : c.armed = c.timer.isSome
  released : ∀ wake ∈ c.wakes, ∃ last, c.lastReleaseMs = some last ∧ wake.released ≤ last
  read : ∀ last ∈ c.lastReleaseMs, last ≤ c.clock
  apart : c.wakes.Pairwise fun a b => config.minIntervalMs ≤ b.released - a.released
  named : ∀ wake ∈ c.wakes, isLocalPeerAddress wake.sender = true
  sublist : (c.drained ++ c.inbox.items).Sublist c.pushed
  counted : c.pushed.length =
    (c.drained ++ c.inbox.items).length + (c.reported + c.inbox.dropped)

namespace Coordinator

variable {config : WakeConfig} {c c' : Coordinator} {first second : Int}

/-! ## One step -/

theorem retryAfterMs_isSome (config : WakeConfig) (c : Coordinator) (t : Int) :
    (c.retryAfterMs config t).isSome = c.suppressed config t := by
  rw [retryAfterMs, suppressed]
  cases c.lastReleaseMs with
  | none => rfl
  | some last =>
    by_cases inside : t - last < config.minIntervalMs
    · simp [inside]
    · simp [inside]

/-- What asking the gate and, where it refuses, arming the timer comes to. -/
inductive Outcome (config : WakeConfig) (c : Coordinator) (sender : String) (first second : Int) :
    Coordinator → Prop
  | woke (later : c.clock ≤ first) (open_ : c.suppressed config first = false) :
    Outcome config c sender first second (emit { c with clock := first } first sender)
  | already (later : c.clock ≤ first) (closed : c.suppressed config first = true)
      (armed : c.armed = true) : Outcome config c sender first second { c with clock := first }
  | deferred (delay : Int) (later : c.clock ≤ first) (still : first ≤ second)
      (closed : c.suppressed config first = true) (idle : c.armed = false)
      (inside : c.suppressed config second = true) :
    Outcome config c sender first second
      { c with clock := second, armed := true, timer := some delay }
  | slipped (later : c.clock ≤ first) (still : first ≤ second)
      (closed : c.suppressed config first = true) (idle : c.armed = false)
      (past : c.suppressed config second = false) :
    Outcome config c sender first second { c with clock := second }

variable {sender : String}

theorem outcome_of_wakeOrDefer (done : c.wakeOrDefer config sender first second = some c') :
    Outcome config c sender first second c' := by
  rw [wakeOrDefer, Option.bind_eq_some_iff] at done
  obtain ⟨read, clocked, done⟩ := done
  rw [now] at clocked
  split at clocked
  · next later =>
    cases clocked
    split at done
    · next closed =>
      rw [armDeferred] at done
      split at done
      · next armed =>
        cases done
        exact .already later closed armed
      · next idle =>
        rw [Option.map_eq_some_iff] at done
        obtain ⟨again, clocked, rfl⟩ := done
        rw [now] at clocked
        obtain ⟨still, rfl⟩ := Machine.of_guard clocked
        have kind := retryAfterMs_isSome config c second
        cases delays : c.retryAfterMs config second with
        | some delay =>
          rw [delays] at kind
          have same : retryAfterMs config { c with clock := second } second = some delay := delays
          simp only [same]
          exact .deferred delay later still closed (by simpa using idle) kind.symm
        | none =>
          rw [delays] at kind
          have same : retryAfterMs config { c with clock := second } second = none := delays
          simp only [same]
          exact .slipped later still closed (by simpa using idle) kind.symm
    · next opened =>
      cases done
      exact .woke later (Bool.not_eq_true _ ▸ opened)
  · cases clocked

/-! ## What every step keeps -/

theorem Sound.clocked (sound : c.Sound config) {t : Int} (later : c.clock ≤ t) :
    Sound config { c with clock := t } :=
  { sound with read := fun last mem => (sound.read last mem).trans later }

/-- A wake that the gate lets through is the interval after all earlier ones. -/
theorem Sound.emit (sound : c.Sound config) {t : Int} (here : c.clock = t)
    (open_ : c.suppressed config t = false) (isLocal : isLocalPeerAddress sender = true) :
    Sound config (c.emit t sender) := by
  have after : ∀ wake ∈ c.wakes, wake.released ≤ t ∧
      config.minIntervalMs ≤ t - wake.released := by
    intro wake mem
    obtain ⟨last, is, before⟩ := sound.released wake mem
    have read := sound.read last is
    rw [suppressed, is] at open_
    have far : ¬ t - last < config.minIntervalMs := by simpa using open_
    constructor <;> omega
  constructor
  case armed => exact sound.armed
  case released =>
    intro wake mem
    refine ⟨t, rfl, ?_⟩
    rcases List.mem_append.mp mem with earlier | new
    · exact (after wake earlier).1
    · rw [List.mem_singleton.mp new]
  case read =>
    intro last mem
    obtain rfl : t = last := Option.some.inj mem
    exact here.ge
  case apart =>
    refine List.pairwise_append.mpr ⟨sound.apart, List.pairwise_singleton _ _, ?_⟩
    intro wake mem new here
    rw [List.mem_singleton.mp here]
    exact (after wake mem).2
  case named =>
    intro wake mem
    rcases List.mem_append.mp mem with earlier | new
    · exact sound.named wake earlier
    · rw [List.mem_singleton.mp new]
      exact isLocal
  case sublist => exact sound.sublist
  case counted => exact sound.counted

theorem Sound.push (sound : c.Sound config) (msg : WakeMessage) :
    Sound config (c.push config msg) := by
  obtain ⟨shed, perm, kept, counted⟩ := c.inbox.push_accounts config.sizeOf config.limits msg
  refine { sound with sublist := ?_, counted := ?_ }
  · have within := (List.Sublist.refl c.drained).append kept
    rw [← List.append_assoc] at within
    exact within.trans (sound.sublist.append (List.Sublist.refl [msg]))
  · have total := sound.counted
    have sizes := perm.length_eq
    simp only [Coordinator.push, List.length_append, List.length_singleton] at total sizes ⊢
    omega

theorem Sound.outcome (sound : c.Sound config) (isLocal : isLocalPeerAddress sender = true)
    (outcome : Outcome config c sender first second c') : c'.Sound config := by
  cases outcome with
  | woke later opened => exact (sound.clocked later).emit rfl opened isLocal
  | already later closed armed => exact sound.clocked later
  | deferred delay later still closed idle inside =>
    exact { sound.clocked (later.trans still) with armed := rfl }
  | slipped later still closed idle past => exact sound.clocked (later.trans still)

theorem Sound.drain (sound : c.Sound config) : c.drain.Sound config :=
  { sound with
    armed := rfl
    sublist := by simpa [Coordinator.drain, BoundedInbox.items, BoundedInbox.empty] using
      sound.sublist
    counted := by
      have total := sound.counted
      simp only [Coordinator.drain, BoundedInbox.items, BoundedInbox.empty, List.map_nil,
        List.append_nil] at total ⊢
      omega }

variable {label : WakeStep}

theorem Sound.step (sound : c.Sound config) (taken : c.step config label = some c') :
    c'.Sound config := by
  cases label with
  | message msg first second =>
    rw [Coordinator.step, onMessage] at taken
    have pushed := sound.push msg
    split at taken
    · cases taken
      exact pushed
    · next remote =>
      split at taken
      · cases taken
        exact pushed
      · have isLocal : msg.isLocal = true := by simpa using remote
        exact pushed.outcome isLocal (outcome_of_wakeOrDefer taken)
  | drain =>
    cases taken
    exact sound.drain
  | timer first second =>
    rw [Coordinator.step, recheck] at taken
    split at taken
    · cases taken
    · have fired : c.fired.Sound config := { sound with armed := rfl }
      split at taken
      · cases taken
        exact fired
      · next message found =>
        have isLocal : message.isLocal = true := List.find?_some found
        exact fired.outcome isLocal (outcome_of_wakeOrDefer taken)

/-! ## When a message is stranded -/

/-- The first part of the coordination. -/
def Heard (c : Coordinator) : Prop :=
  c.hasLocalUnread = true → c.woken = true ∨ c.timer.isSome = true

theorem Sound.coordinated_iff (sound : c.Sound config) : c.Coordinated config ↔ c.Heard :=
  ⟨fun whole => whole.heard, fun heard =>
    { sound with heard := heard }⟩

theorem hasLocalUnread_iff :
    c.hasLocalUnread = true ↔ ∃ msg ∈ c.inbox.items, msg.isLocal = true := by
  rw [hasLocalUnread, BoundedInbox.some, List.any_eq_true]

/-- A message for which no other one is unread is itself unread afterwards, if it is retained. -/
theorem hasLocalUnread_push {msg : WakeMessage} (isLocal : msg.isLocal = true)
    (none : c.hasLocalUnread = false) :
    (c.push config msg).hasLocalUnread = decide (config.sizeOf msg ≤ config.limits.maxBytes) := by
  by_cases small : config.sizeOf msg ≤ config.limits.maxBytes
  · obtain ⟨shed, -, -, here⟩ := c.inbox.push_retained small
    rw [hasLocalUnread_iff.mpr ⟨msg, here, isLocal⟩, decide_eq_true small]
  · have same : (c.push config msg).hasLocalUnread = c.hasLocalUnread := by
      rw [hasLocalUnread, Coordinator.push, c.inbox.push_oversized (Nat.lt_of_not_le small)]
      rfl
    rw [same, none, decide_eq_false small]

theorem hasLocalUnread_push_remote {msg : WakeMessage} (remote : msg.isLocal = false)
    (unread : (c.push config msg).hasLocalUnread = true) : c.hasLocalUnread = true := by
  obtain ⟨other, mem, isLocal⟩ := hasLocalUnread_iff.mp unread
  rcases c.inbox.mem_of_mem_push mem with before | rfl
  · exact hasLocalUnread_iff.mpr ⟨other, before, isLocal⟩
  · rw [remote] at isLocal
    cases isLocal

theorem hasLocalUnread_of_find {message : WakeMessage}
    (found : c.inbox.find WakeMessage.isLocal = some message) : c.hasLocalUnread = true :=
  hasLocalUnread_iff.mpr ⟨message, List.mem_of_find?_eq_some found, List.find?_some found⟩

theorem hasLocalUnread_of_find_none (found : c.inbox.find WakeMessage.isLocal = none) :
    c.hasLocalUnread = false := by
  rw [BoundedInbox.find, List.find?_eq_none] at found
  rw [hasLocalUnread, BoundedInbox.some, List.any_eq_false]
  exact found

/-- What asking the gate leaves behind, where no timer is pending unless `armed` says so. -/
theorem heard_outcome_iff (armed : c.armed = c.timer.isSome)
    (outcome : Outcome config c sender first second c') :
    c'.Heard ↔ (c.hasLocalUnread && !c.woken && !c.armed && c.slips config first second) = false := by
  cases outcome with
  | woke later opened => simp [Heard, Coordinator.emit, slips, opened]
  | already later closed isArmed =>
    have pending : c.timer.isSome = true := armed ▸ isArmed
    simp [Heard, isArmed, pending]
  | deferred delay later still closed idle inside => simp [Heard, slips, inside]
  | slipped later still closed idle past =>
    have gone : c.timer.isSome = false := armed ▸ idle
    have slip : c.slips config first second = true := by simp [slips, later, still, closed, past]
    simp only [Heard, idle, slip, gone, Bool.not_false, Bool.and_true, Bool.and_eq_false_iff,
      Bool.not_eq_false', Bool.false_eq_true, or_false]
    constructor
    · intro heard
      cases unread : c.hasLocalUnread with
      | false => exact Or.inl rfl
      | true => exact Or.inr (heard unread)
    · rintro (read | woken)
      · intro unread
        exact absurd (read.symm.trans unread) Bool.false_ne_true
      · exact fun _ => woken

/-- A step keeps every message heard exactly when it strands none. -/
theorem heard_step_iff (sound : c.Sound config) (heard : c.Heard)
    (taken : c.step config label = some c') : c'.Heard ↔ c.strands config label = false := by
  cases label with
  | message msg first second =>
    rw [Coordinator.step, onMessage] at taken
    split at taken
    -- a message from elsewhere wakes nobody
    · next remote =>
      cases taken
      have away : msg.isLocal = false := by simpa using remote
      refine iff_of_true (fun unread => heard (hasLocalUnread_push_remote away unread)) ?_
      simp [strands, away]
    · next isLocal =>
      have here : msg.isLocal = true := by simpa using isLocal
      split at taken
      · next unread =>
        cases taken
        exact iff_of_true (fun _ => heard unread) (by simp [strands, unread])
      · next alone =>
        have none : c.hasLocalUnread = false := by simpa using alone
        -- the first local message that is unread tries to wake
        have outcome := outcome_of_wakeOrDefer taken
        rw [heard_outcome_iff (sound.push msg).armed outcome, hasLocalUnread_push here none,
          strands, here, none]
        simp only [Bool.true_and, Bool.not_false, Bool.and_true]
        rfl
  | drain =>
    cases taken
    exact iff_of_true (fun unread => nomatch unread) rfl
  | timer first second =>
    rw [Coordinator.step, recheck] at taken
    split at taken
    · cases taken
    · next delay pending =>
      split at taken
      · next none =>
        cases taken
        -- nothing is unread by now: the timer has nothing to do
        have read : c.hasLocalUnread = false := hasLocalUnread_of_find_none none
        refine iff_of_true (fun unread => absurd (read.symm.trans unread) Bool.false_ne_true) ?_
        simp [strands, read]
      · next message found =>
        have unread : c.hasLocalUnread = true := hasLocalUnread_of_find found
        have outcome := outcome_of_wakeOrDefer taken
        have same : (c.fired.hasLocalUnread && !c.fired.woken && !c.fired.armed &&
            c.fired.slips config first second) =
            (c.hasLocalUnread && !c.woken && true && c.slips config first second) := rfl
        rw [heard_outcome_iff rfl outcome, strands, pending, same]
        simp only [Option.isSome_some, Bool.true_and, Bool.and_true]

theorem sound_new (clock : Int) : (Coordinator.new clock).Sound config where
  armed := rfl
  released := fun _ mem => nomatch mem
  read := fun _ mem => nomatch mem
  apart := List.Pairwise.nil
  named := fun _ mem => nomatch mem
  sublist := List.Sublist.refl []
  counted := rfl

/-- Where the clock slips, the reads are possible. -/
theorem wakeOrDefer_isSome (sender : String) (slip : c.slips config first second = true) :
    (c.wakeOrDefer config sender first second).isSome = true := by
  simp only [slips, Bool.and_eq_true, decide_eq_true_eq] at slip
  obtain ⟨⟨⟨later, still⟩, closed⟩, -⟩ := slip
  have gate : suppressed config { c with clock := first } first = true := closed
  rw [wakeOrDefer, now, if_pos later, Option.bind_some, if_pos gate, armDeferred]
  split
  · rfl
  · rw [now, if_pos still]
    rfl

/-- A step that is not enabled strands nothing. -/
theorem strands_of_disabled (disabled : c.step config label = none) :
    c.strands config label = false := by
  rw [Bool.eq_false_iff]
  intro strands
  cases label with
  | message msg first second =>
    simp only [Coordinator.strands, Bool.and_eq_true, Bool.not_eq_true'] at strands
    obtain ⟨⟨⟨⟨⟨isLocal, -⟩, none⟩, -⟩, -⟩, slip⟩ := strands
    have asked := wakeOrDefer_isSome (c := c.push config msg) msg.sender slip
    rw [Coordinator.step, onMessage] at disabled
    simp only [isLocal, none, Bool.not_true, Bool.false_eq_true, if_false] at disabled
    rw [disabled] at asked
    cases asked
  | drain => cases strands
  | timer first second =>
    simp only [Coordinator.strands, Bool.and_eq_true, Bool.not_eq_true'] at strands
    obtain ⟨⟨⟨pending, -⟩, -⟩, slip⟩ := strands
    rw [Coordinator.step, recheck] at disabled
    split at disabled
    · next none =>
      rw [none] at pending
      cases pending
    · split at disabled
      · cases disabled
      · next message found =>
        have asked := wakeOrDefer_isSome (c := c.fired) message.sender slip
        rw [disabled] at asked
        cases asked

end Coordinator

/-- Wake coordination holds in every state of a run exactly when no step strands a message. -/
theorem wake_coordination_iff (config : WakeConfig) (clock : Int) (schedule : List WakeStep) :
    (coordination config).Throughout (Coordinator.Coordinated config) (.new clock) schedule ↔
      (coordination config).Meets (fun c label => c.strands config label = false) (.new clock)
        schedule := by
  apply Machine.throughout_iff_meets_within (I := Coordinator.Sound config)
  · exact fun c label c' sound taken => sound.step taken
  · intro c label c' sound holds taken
    rw [(sound.step taken).coordinated_iff]
    exact Coordinator.heard_step_iff sound holds.heard taken
  · exact fun c label none => Coordinator.strands_of_disabled none
  · exact Coordinator.sound_new clock
  · exact (Coordinator.sound_new clock).coordinated_iff.mpr fun unread => nomatch unread

/-- A message of 57 bytes. -/
private def localMessage (id : String) : WakeMessage := ⟨"/w@a", .null, id, none, "now"⟩

/-- The configuration of the server. -/
private def mcpConfig : WakeConfig := ⟨fun _ => 57, inboxLimits, wakeMinIntervalMs⟩

/-- The gate reads 4999 ms after the last wake and refuses; a millisecond later there is nothing
left to wait for, and no timer is armed for the message. -/
theorem message_stranded : ∃ config c, (coordination config).Reachable c ∧
    c.hasLocalUnread = true ∧ c.woken = false ∧ c.timer = none := by
  let schedule : List WakeStep :=
    [.message (localMessage "1") 0 0, .drain, .message (localMessage "2") 4999 5000]
  have ran : (((coordination mcpConfig).exec (.new 0) schedule).any fun c =>
      c.hasLocalUnread && !c.woken && c.timer.isNone) = true := by decide +kernel
  obtain ⟨c, executed, facts⟩ := (Option.any_eq_true _ _).mp ran
  simp only [Bool.and_eq_true, Bool.not_eq_true', Option.isNone_iff_eq_none] at facts
  exact ⟨mcpConfig, c, Machine.reachable_of_exec ⟨0, rfl⟩ executed, facts.1.1, facts.1.2, facts.2⟩

end OutpostPi.Mcp
