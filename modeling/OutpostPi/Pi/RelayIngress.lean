import Mathlib.Algebra.Ring.Int.Defs
import OutpostPi.Lib.Machine

/-!
# Ingress of one relay binding

The frames of a bound relay client wait in one queue for both classes, control and data, and are
dispatched by an asynchronous drain. Each class has counters of its own, raised when a frame is
admitted and lowered when its cell is released: by the drain when its dispatch has settled, or
by the unbind, whichever comes first.

`ingress` interleaves arrivals, the handlers of the frame in dispatch, the drain and the unbind.
`Sound` is the joint invariant of counters, queue and drain. `Progress` says what the drain can do at
each of its stages, and `exists_dispatched` that it reaches every queued frame even if every handler
fails. `ingress_sound` says what they give in every run.
-/

set_option autoImplicit false

namespace OutpostPi.Pi.RelayIngress

open OutpostPi.Lib

/-! ## Cells -/

/-- The class of a frame, which has its own limits. -/
inductive DispatchQueue
  | data
  | control
  deriving DecidableEq

/-- The frame limit of the data class. -/
def maxPendingRelayDispatchFrames : Nat := 256
/-- The byte limit of the data class. -/
def maxPendingRelayDispatchBytes : Nat := 8 * 1024 * 1024
/-- The frame limit of the control class. -/
def maxPendingRelayControlFrames : Nat := 64
/-- The byte limit of the control class. -/
def maxPendingRelayControlBytes : Nat := 256 * 1024

/-- The frame limit of a class. -/
def DispatchQueue.maxPendingFrames : DispatchQueue → Int
  | .data => maxPendingRelayDispatchFrames
  | .control => maxPendingRelayControlFrames

/-- The byte limit of a class. -/
def DispatchQueue.maxPendingBytes : DispatchQueue → Int
  | .data => maxPendingRelayDispatchBytes
  | .control => maxPendingRelayControlBytes

/-- What a data line is decoded to. -/
inductive IngressKind
  | outer
  | control
  | crossPc
  deriving DecidableEq

/-- The decoders: whether a line that mentions a type is a control frame, and what a data line
is, absent where decoding throws. -/
structure IngressCodec where
  decodeRelayControlFrame : String → Bool
  decodeRelayIngress : String → Option IngressKind

/-- An admitted frame, with its number in the order of arrival. A control frame is known by the
line that it was decoded from. -/
structure RetainedDispatch where
  arrival : Nat
  queue : DispatchQueue
  lineBytes : Nat
  line : Option String
  controlFrame : Option String
  accounted : Bool
  deriving DecidableEq

/-- Where a dispatch is: between two handlers, in one, or settled. -/
inductive DispatchStage
  | ready
  | calling
  | settled
  deriving DecidableEq

/-- A dispatch in progress: its cell, what the frame was decoded to, and whether a handler has
consumed it. -/
structure Dispatch where
  work : RetainedDispatch
  kind : Option IngressKind
  consumed : Bool
  stage : DispatchStage
  deriving DecidableEq

/-- The drain: not running, awaiting a dispatch, or returned with its continuation pending. -/
inductive Drain
  | idle
  | awaiting (dispatch : Dispatch)
  | returned
  deriving DecidableEq

/-- What a drain awaits. -/
def Drain.dispatch? : Drain → Option Dispatch
  | .awaiting dispatch => some dispatch
  | _ => none

/-- The variables of a binding, and its history: the number of frames that have arrived, those
admitted with something to dispatch, those whose dispatch has begun and ended, and the frame of
every handler call and publication. -/
structure Binding where
  bindingAlive : Bool
  dispatchDrain : Drain
  pendingDispatches : List RetainedDispatch
  pendingFrames : DispatchQueue → Int
  pendingBytes : DispatchQueue → Int
  arrivals : Nat
  accepted : List Nat
  began : List Nat
  ended : List Nat
  effects : List Nat

/-- Take the frame out of a cell and begin its dispatch. An empty line is not dispatched. -/
def RetainedDispatch.start (codec : IngressCodec) (work : RetainedDispatch) : Option Dispatch :=
  let begin (kind : Option IngressKind) : Dispatch :=
    { work := { work with line := none, controlFrame := none }
      kind := kind
      consumed := false
      stage := if kind.isSome then .ready else .settled }
  match work.queue with
  | .control => work.controlFrame.map fun _ => begin (some .control)
  | .data =>
    (work.line.filter fun line => line ≠ "").map fun line => begin (codec.decodeRelayIngress line)

namespace Binding

/-- A binding when it is made. -/
def created : Binding where
  bindingAlive := true
  dispatchDrain := .idle
  pendingDispatches := []
  pendingFrames := fun _ => 0
  pendingBytes := fun _ => 0
  arrivals := 0
  accepted := []
  began := []
  ended := []
  effects := []

/-- Change the counters of a class. -/
def count (b : Binding) (queue : DispatchQueue) (frames bytes : Int) : Binding :=
  { b with
    pendingFrames := Function.update b.pendingFrames queue (b.pendingFrames queue + frames)
    pendingBytes := Function.update b.pendingBytes queue (b.pendingBytes queue + bytes) }

/-- Give the counted frame of a cell back, once. -/
def releaseDispatch (b : Binding) (work : RetainedDispatch) : Binding :=
  if work.accounted then b.count work.queue (-1) (-work.lineBytes) else b

section

variable (codec : IngressCodec)

/-- The loop of the drain, up to its next await. -/
def drainDispatches (b : Binding) : List RetainedDispatch → Binding
  | [] => { b with pendingDispatches := [], dispatchDrain := .returned }
  | work :: rest =>
    if b.bindingAlive then
      match work.start codec with
      | some dispatch =>
        { b with
          pendingDispatches := rest
          dispatchDrain := .awaiting dispatch
          began := b.began ++ [work.arrival] }
      | none => drainDispatches (b.releaseDispatch work) rest
    else { b with pendingDispatches := work :: rest, dispatchDrain := .returned }

/-- Start a drain unless one is running. -/
def ensureDispatchDrain (b : Binding) : Binding :=
  match b.dispatchDrain with
  | .idle => if b.bindingAlive then b.drainDispatches codec b.pendingDispatches else b
  | _ => b

/-- Count a frame, put it behind the others and see that a drain runs. -/
def enqueue (b : Binding) (work : RetainedDispatch) : Binding :=
  let counted := b.count work.queue 1 work.lineBytes
  ensureDispatchDrain codec
    { counted with
      pendingDispatches := b.pendingDispatches ++ [work]
      accepted :=
        if (work.start codec).isSome then b.accepted ++ [work.arrival] else b.accepted }

/-- The cell of a frame that arrives. -/
def workOf (b : Binding) (line : String) : RetainedDispatch :=
  if codec.decodeRelayControlFrame line then
    ⟨b.arrivals, .control, line.utf8ByteSize, none, some line, true⟩
  else ⟨b.arrivals, .data, line.utf8ByteSize, some line, none, true⟩

/-- Admit a frame within the limits of its class, or drop it. -/
def onMessage (b : Binding) (line : String) : Binding :=
  let work := b.workOf codec line
  let arrived := { b with arrivals := b.arrivals + 1 }
  if work.queue.maxPendingFrames ≤ b.pendingFrames work.queue ∨
      work.queue.maxPendingBytes - b.pendingBytes work.queue < work.lineBytes then arrived
  else arrived.enqueue codec work

/-- The drain goes on after a dispatch, whether it returned or threw. -/
def resume (b : Binding) (dispatch : Dispatch) : Binding :=
  drainDispatches codec
    { b.releaseDispatch dispatch.work with ended := b.ended ++ [dispatch.work.arrival] }
    b.pendingDispatches

/-- The continuation of a drain that has returned. -/
def finalize (b : Binding) : Binding :=
  let idle := { b with dispatchDrain := .idle }
  if b.pendingDispatches ≠ [] ∧ b.bindingAlive then idle.ensureDispatchDrain codec else idle

end

/-- Release the work in dispatch and everything queued. -/
def releasePendingDispatch (b : Binding) : Binding :=
  let stopped := { b with bindingAlive := false }
  let released :=
    match b.dispatchDrain with
    | .awaiting dispatch =>
      { stopped.releaseDispatch dispatch.work with
        dispatchDrain := .awaiting { dispatch with
          work := { dispatch.work with accounted := false } } }
    | _ => stopped
  { b.pendingDispatches.foldl releaseDispatch released with pendingDispatches := [] }

/-- A dispatch goes on; a handler call and a publication are effects of its frame. -/
def proceed (b : Binding) (dispatch : Dispatch) (effect : Bool) : Binding :=
  { b with
    dispatchDrain := .awaiting dispatch
    effects := if effect then b.effects ++ [dispatch.work.arrival] else b.effects }

/-- Call the next handler, unless the binding is gone. Frames of other computers have none. -/
def callHandler (b : Binding) (dispatch : Dispatch) : Option Binding :=
  match dispatch.stage, dispatch.kind with
  | .ready, some .crossPc => none
  | .ready, some _ =>
    some (if b.bindingAlive then b.proceed { dispatch with stage := .calling } true
      else b.proceed { dispatch with stage := .settled } false)
  | _, _ => none

/-- A handler returns. Only the handlers of outer frames can consume one. -/
def handlerReturns (b : Binding) (dispatch : Dispatch) (consumes : Bool) : Option Binding :=
  match dispatch.stage with
  | .calling =>
    some (b.proceed
      { dispatch with
        stage := .ready
        consumed := dispatch.consumed || (consumes && dispatch.kind == some .outer) } false)
  | _ => none

/-- A handler throws. A control frame is published all the same. -/
def handlerThrows (b : Binding) (dispatch : Dispatch) : Option Binding :=
  match dispatch.stage with
  | .calling =>
    some (b.proceed { dispatch with stage := .settled }
      (dispatch.kind == some .control && b.bindingAlive))
  | _ => none

/-- No handler is left: the frame is published unless it was consumed. -/
def publish (b : Binding) (dispatch : Dispatch) : Option Binding :=
  match dispatch.stage with
  | .ready =>
    some (b.proceed { dispatch with stage := .settled } (b.bindingAlive && !dispatch.consumed))
  | _ => none

end Binding

/-- What the relay, the handlers and the transport do. -/
inductive IngressAction
  | message (line : String)
  | callHandler
  | handlerReturns (consumes : Bool)
  | handlerThrows
  | publish
  | resume
  | finalize
  | unbind

/-- One binding. The listener of a client is gone with its binding. -/
def ingress (codec : IngressCodec) : Machine Binding IngressAction where
  Init b := b = .created
  step b
    | .message line => if b.bindingAlive then some (b.onMessage codec line) else none
    | .callHandler => b.dispatchDrain.dispatch?.bind b.callHandler
    | .handlerReturns consumes =>
      b.dispatchDrain.dispatch?.bind fun dispatch => b.handlerReturns dispatch consumes
    | .handlerThrows => b.dispatchDrain.dispatch?.bind b.handlerThrows
    | .publish => b.dispatchDrain.dispatch?.bind b.publish
    | .resume =>
      b.dispatchDrain.dispatch?.bind fun dispatch =>
        if dispatch.stage = .settled then some (b.resume codec dispatch) else none
    | .finalize =>
      match b.dispatchDrain with
      | .returned => some (b.finalize codec)
      | _ => none
    | .unbind => if b.bindingAlive then some b.releasePendingDispatch else none

/-! ## Counters -/

/-- The frames of a class among these cells. -/
def framesOf (queue : DispatchQueue) (cells : List RetainedDispatch) : Int :=
  (cells.map fun work => if work.queue = queue then (1 : Int) else 0).sum

/-- The bytes of a class among these cells. -/
def bytesOf (queue : DispatchQueue) (cells : List RetainedDispatch) : Int :=
  (cells.map fun work => if work.queue = queue then (work.lineBytes : Int) else 0).sum

/-- The counters are the sums over these cells, and within the limits of both classes. -/
structure Counted (b : Binding) (cells : List RetainedDispatch) : Prop where
  accounted : ∀ work ∈ cells, work.accounted = true
  frames : ∀ queue, b.pendingFrames queue = framesOf queue cells
  bytes : ∀ queue, b.pendingBytes queue = bytesOf queue cells
  maxFrames : ∀ queue, b.pendingFrames queue ≤ queue.maxPendingFrames
  maxBytes : ∀ queue, b.pendingBytes queue ≤ queue.maxPendingBytes

namespace Counted

variable {b : Binding} {work : RetainedDispatch} {cells : List RetainedDispatch}

/-- Only the counters matter. -/
theorem congr {b' : Binding} (counted : Counted b cells)
    (frames : b'.pendingFrames = b.pendingFrames) (bytes : b'.pendingBytes = b.pendingBytes) :
    Counted b' cells := by
  constructor
  · exact counted.accounted
  · rw [frames]
    exact counted.frames
  · rw [bytes]
    exact counted.bytes
  · rw [frames]
    exact counted.maxFrames
  · rw [bytes]
    exact counted.maxBytes

/-- Released work is subtracted from both counters, as it was counted before. -/
theorem release_eq (counted : Counted b (work :: cells)) :
    b.releaseDispatch work = b.count work.queue (-1) (-work.lineBytes) :=
  if_pos (counted.accounted work List.mem_cons_self)

/-- A cell that is released is no longer counted. -/
theorem release (counted : Counted b (work :: cells)) :
    Counted (b.releaseDispatch work) cells := by
  rw [counted.release_eq]
  have frames := counted.frames
  have bytes := counted.bytes
  simp only [framesOf, bytesOf, List.map_cons, List.sum_cons] at frames bytes
  refine ⟨fun other mem => counted.accounted other (List.mem_cons_of_mem _ mem), ?_, ?_, ?_, ?_⟩
  all_goals
    intro queue
    have frames := frames queue
    have bytes := bytes queue
    have maxFrames := counted.maxFrames queue
    have maxBytes := counted.maxBytes queue
    by_cases same : queue = work.queue
    · subst same
      simp only [Binding.count, Function.update_self, framesOf, bytesOf, if_true] at *
      omega
    · simp only [Binding.count, Function.update_of_ne same, framesOf, bytesOf,
        if_neg (Ne.symm same)] at *
      omega

/-- A cell that fits its class is counted. -/
theorem enqueue (counted : Counted b cells) (accounted : work.accounted = true)
    (frames : b.pendingFrames work.queue < work.queue.maxPendingFrames)
    (bytes : work.lineBytes ≤ work.queue.maxPendingBytes - b.pendingBytes work.queue) :
    Counted (b.count work.queue 1 work.lineBytes) (cells ++ [work]) := by
  refine ⟨?_, ?_, ?_, ?_, ?_⟩
  · intro other mem
    rcases List.mem_append.mp mem with earlier | here
    · exact counted.accounted other earlier
    · rw [List.mem_singleton.mp here]
      exact accounted
  all_goals
    intro queue
    have frames' := counted.frames queue
    have bytes' := counted.bytes queue
    have maxFrames := counted.maxFrames queue
    have maxBytes := counted.maxBytes queue
    by_cases same : queue = work.queue
    · subst same
      simp only [Binding.count, Function.update_self, framesOf, bytesOf, List.map_append,
        List.sum_append, List.map_cons, List.map_nil, List.sum_cons, List.sum_nil, if_true] at *
      omega
    · simp only [Binding.count, Function.update_of_ne same, framesOf, bytesOf, List.map_append,
        List.sum_append, List.map_cons, List.map_nil, List.sum_cons, List.sum_nil,
        if_neg (Ne.symm same)] at *
      omega

/-- Releasing every cell that is counted clears the counters, and changes nothing else. -/
theorem foldl_release (counted : Counted b cells) :
    cells.foldl Binding.releaseDispatch b =
      { b with pendingFrames := fun _ => 0, pendingBytes := fun _ => 0 } := by
  induction cells generalizing b with
  | nil =>
    have frames : b.pendingFrames = fun _ => 0 := funext counted.frames
    have bytes : b.pendingBytes = fun _ => 0 := funext counted.bytes
    cases b
    cases frames
    cases bytes
    rfl
  | cons work cells ih =>
    rw [List.foldl_cons, ih counted.release, counted.release_eq]
    rfl

end Counted

/-! ## The invariant -/

/-- The frame that a drain has taken out of the queue. -/
def Drain.work? (drain : Drain) : Option RetainedDispatch := drain.dispatch?.map Dispatch.work

/-- The cells of a binding, in dispatch and queued. -/
def Binding.held (b : Binding) : List RetainedDispatch :=
  b.dispatchDrain.work?.toList ++ b.pendingDispatches

/-- The frame in dispatch. -/
def Binding.current (b : Binding) : Option Nat :=
  b.dispatchDrain.work?.map RetainedDispatch.arrival

section Invariant

variable (codec : IngressCodec)

/-- The arrival numbers of the cells that will be dispatched. -/
def waiting (cells : List RetainedDispatch) : List Nat :=
  (cells.filter fun work => (work.start codec).isSome).map RetainedDispatch.arrival

/-- What holds of a binding in every run. -/
structure Sound (b : Binding) : Prop where
  bound : b.bindingAlive = true → Counted b b.held
  unbound : b.bindingAlive = false → b.pendingDispatches = [] ∧
    (∀ work ∈ b.held, work.accounted = false) ∧
    ∀ queue, b.pendingFrames queue = 0 ∧ b.pendingBytes queue = 0
  ascending : b.accepted.Pairwise (· < ·)
  arrived : ∀ i ∈ b.accepted, i < b.arrivals
  queued : b.bindingAlive = true → b.accepted = b.began ++ waiting codec b.pendingDispatches
  dispatched : b.began <+: b.accepted
  serial : b.began = b.ended ++ b.current.toList
  drains : b.bindingAlive = true → b.pendingDispatches ≠ [] → b.dispatchDrain ≠ .idle

variable {codec} {b : Binding} {work : RetainedDispatch} {dispatch : Dispatch}
  {cells : List RetainedDispatch}

/-- Work that starts leaves its line and its frame behind. -/
theorem exists_start (started : work.start codec = some dispatch) :
    dispatch.work = { work with line := none, controlFrame := none } := by
  rw [RetainedDispatch.start] at started
  split at started
  · obtain ⟨frame, -, rfl⟩ := Option.map_eq_some_iff.mp started
    rfl
  · obtain ⟨line, -, rfl⟩ := Option.map_eq_some_iff.mp started
    rfl

/-- The loop of the drain dispatches the first frame that it finds, and releases the empty lines
before it. -/
theorem sound_drainDispatches (alive : b.bindingAlive = true) (counted : Counted b cells)
    (ascending : b.accepted.Pairwise (· < ·)) (arrived : ∀ i ∈ b.accepted, i < b.arrivals)
    (queued : b.accepted = b.began ++ waiting codec cells) (serial : b.began = b.ended) :
    Sound codec (b.drainDispatches codec cells) := by
  induction cells generalizing b with
  | nil =>
    have all : b.accepted = b.began := by
      rw [queued]
      exact List.append_nil _
    constructor
    · intro _
      exact { counted with accounted := nofun }
    · intro dead
      cases alive.symm.trans dead
    · exact ascending
    · exact arrived
    · exact fun _ => queued
    · exact ⟨[], (List.append_nil _).trans all.symm⟩
    · exact serial.trans (List.append_nil _).symm
    · exact fun _ some => absurd rfl some
  | cons work cells ih =>
    rw [Binding.drainDispatches, if_pos alive]
    cases started : work.start codec with
    | none =>
      -- an empty line
      refine ih ?_ counted.release ?_ ?_ ?_ ?_
      all_goals rw [counted.release_eq]
      · exact alive
      · exact ascending
      · exact arrived
      · refine queued.trans ?_
        simp [waiting, started, Binding.count]
      · exact serial
    | some dispatch =>
      have cell := exists_start started
      have split : b.accepted = (b.began ++ [work.arrival]) ++ waiting codec cells := by
        refine queued.trans ?_
        simp [waiting, started]
      constructor
      · intro _
        refine ⟨?_, ?_, ?_, counted.maxFrames, counted.maxBytes⟩
        · intro other mem
          rcases List.mem_cons.mp mem with rfl | later
          · rw [cell]
            exact counted.accounted work List.mem_cons_self
          · exact counted.accounted other (List.mem_cons_of_mem _ later)
        · intro queue
          refine (counted.frames queue).trans ?_
          simp [Binding.held, Drain.work?, Drain.dispatch?, framesOf, cell]
        · intro queue
          refine (counted.bytes queue).trans ?_
          simp [Binding.held, Drain.work?, Drain.dispatch?, bytesOf, cell]
      · intro dead
        cases alive.symm.trans dead
      · exact ascending
      · exact arrived
      · exact fun _ => split
      · exact ⟨_, split.symm⟩
      · have arrival : dispatch.work.arrival = work.arrival := by rw [cell]
        dsimp only [Binding.current, Drain.work?, Drain.dispatch?, Option.map_some]
        rw [serial, arrival]
        rfl
      · exact fun _ _ => nofun

/-- A drain is started where none is running. -/
theorem sound_ensureDispatchDrain (alive : b.bindingAlive = true) (counted : Counted b b.held)
    (ascending : b.accepted.Pairwise (· < ·)) (arrived : ∀ i ∈ b.accepted, i < b.arrivals)
    (queued : b.accepted = b.began ++ waiting codec b.pendingDispatches)
    (serial : b.began = b.ended ++ b.current.toList) :
    Sound codec (b.ensureDispatchDrain codec) := by
  have running : b.dispatchDrain ≠ .idle → Sound codec b := by
    intro running
    refine ⟨fun _ => counted, fun dead => ?_, ascending, arrived, fun _ => queued, ⟨_, queued.symm⟩,
      serial, fun _ _ => running⟩
    cases alive.symm.trans dead
  rw [Binding.ensureDispatchDrain]
  split
  · next idle =>
    rw [if_pos alive]
    rw [Binding.held, idle] at counted
    rw [Binding.current, idle] at serial
    exact sound_drainDispatches alive counted ascending arrived queued
      (serial.trans (List.append_nil _))
  · next other => exact running other

namespace Sound

/-- A new binding is sound. -/
theorem created : Sound codec .created := by
  constructor
  · intro _
    refine ⟨nofun, fun _ => rfl, fun _ => rfl, ?_, ?_⟩
    · intro queue
      cases queue <;> decide
    · intro queue
      cases queue <;> decide
  · exact nofun
  · exact List.Pairwise.nil
  · exact nofun
  · exact fun _ => rfl
  · exact List.prefix_refl _
  · rfl
  · exact fun _ some => absurd rfl some

/-- A dispatch that goes on keeps its cell. -/
theorem proceed {dispatch' : Dispatch} {effect : Bool} (sound : Sound codec b)
    (is : b.dispatchDrain.dispatch? = some dispatch) (same : dispatch'.work = dispatch.work) :
    Sound codec (b.proceed dispatch' effect) := by
  have work : (Drain.awaiting dispatch').work? = b.dispatchDrain.work? := by
    rw [Drain.work?, Drain.work?, is, Drain.dispatch?, Option.map_some, same]
    rfl
  have held : (b.proceed dispatch' effect).held = b.held :=
    congrArg (fun cell => cell.toList ++ b.pendingDispatches) work
  exact { sound with
    bound alive := by
      have counted := sound.bound alive
      rw [← held] at counted
      exact counted.congr rfl rfl
    unbound dead := by
      rw [held]
      exact sound.unbound dead
    serial := by
      have serial := sound.serial
      rw [Binding.current, ← work] at serial
      exact serial
    drains := fun _ _ => nofun }

/-- A frame that arrives is dropped, or waits behind every other one. -/
theorem onMessage {line : String} (sound : Sound codec b) (alive : b.bindingAlive = true) :
    Sound codec (b.onMessage codec line) := by
  have later : ∀ i ∈ b.accepted, i < b.arrivals + 1 := by
    intro i mem
    exact Nat.lt_succ_of_lt (sound.arrived i mem)
  rw [Binding.onMessage]
  split
  -- a line beyond the bounds is dropped, and only counted as arrived
  · exact ⟨fun alive => (sound.bound alive).congr rfl rfl, sound.unbound, sound.ascending, later,
      sound.queued, sound.dispatched, sound.serial, sound.drains⟩
  next fits =>
  rw [not_or] at fits
  -- the cell carries the number of its arrival, and is accounted for
  have arrival : (b.workOf codec line).arrival = b.arrivals := by
    rw [Binding.workOf]
    split <;> rfl
  have accounted : (b.workOf codec line).accounted = true := by
    rw [Binding.workOf]
    split <;> rfl
  generalize b.workOf codec line = work at fits arrival accounted
  have counted := (sound.bound alive).enqueue accounted (by omega) (by omega)
  generalize is : (if (work.start codec).isSome then b.accepted ++ [work.arrival]
    else b.accepted) = accepted
  -- the new arrival is later than all that were admitted
  have ascending : accepted.Pairwise (· < ·) ∧ ∀ i ∈ accepted, i < b.arrivals + 1 := by
    rw [← is]
    split
    · refine ⟨List.pairwise_append.mpr ⟨sound.ascending, List.pairwise_singleton .., ?_⟩, ?_⟩
      · intro i mem j here
        rw [List.mem_singleton.mp here, arrival]
        exact sound.arrived i mem
      · intro i mem
        rcases List.mem_append.mp mem with earlier | here
        · exact later i earlier
        · rw [List.mem_singleton.mp here, arrival]
          exact Nat.lt_succ_self _
    · exact ⟨sound.ascending, later⟩
  -- only work that decodes is waiting to begin
  have queued : accepted = b.began ++ waiting codec (b.pendingDispatches ++ [work]) := by
    rw [← is, sound.queued alive]
    cases started : work.start codec with
    | none => simp [waiting, started]
    | some dispatch => simp [waiting, started]
  have held : b.dispatchDrain.work?.toList ++ (b.pendingDispatches ++ [work]) = b.held ++ [work] :=
    (List.append_assoc ..).symm
  rw [Binding.enqueue]
  refine sound_ensureDispatchDrain alive ?_ ?_ ?_ ?_ sound.serial
  · rw [Binding.held]
    dsimp only [Binding.count]
    rw [held]
    exact counted.congr rfl rfl
  · dsimp only
    rw [is]
    exact ascending.1
  · dsimp only
    rw [is]
    exact ascending.2
  · dsimp only
    rw [is]
    exact queued

/-- The drain goes on with the next frame, or returns. -/
theorem resume (sound : Sound codec b) (is : b.dispatchDrain = .awaiting dispatch) :
    Sound codec (b.resume codec dispatch) := by
  have serial := sound.serial
  rw [Binding.current, is] at serial
  have held : b.held = dispatch.work :: b.pendingDispatches := by
    rw [Binding.held, is]
    rfl
  cases alive : b.bindingAlive with
  | true =>
    have counted := sound.bound alive
    rw [held] at counted
    have released := counted.release
    rw [Binding.resume]
    rw [counted.release_eq] at released ⊢
    refine sound_drainDispatches alive ?_ sound.ascending sound.arrived (sound.queued alive) serial
    exact released.congr rfl rfl
  | false =>
    -- the unbind has released the cell
    obtain ⟨empty, dropped, cleared⟩ := sound.unbound alive
    have unaccounted : dispatch.work.accounted = false :=
      dropped _ (by rw [held]; exact List.mem_cons_self)
    rw [Binding.resume, Binding.releaseDispatch, unaccounted, empty]
    exact { sound with
      bound bound := by
        cases alive.symm.trans bound
      unbound := fun _ => ⟨rfl, nofun, cleared⟩
      queued bound := by
        cases alive.symm.trans bound
      serial := serial.trans (List.append_nil _).symm
      drains := fun _ some => absurd rfl some }

/-- Finalizing a drain keeps the binding sound. -/
theorem finalize (sound : Sound codec b) (is : b.dispatchDrain = .returned) :
    Sound codec (b.finalize codec) := by
  have held : b.held = b.pendingDispatches := by
    rw [Binding.held, is]
    rfl
  have serial := sound.serial
  rw [Binding.current, is] at serial
  rw [Binding.finalize]
  split
  · next more =>
    have counted := sound.bound more.2
    rw [held] at counted
    refine sound_ensureDispatchDrain more.2 ?_ sound.ascending sound.arrived
      (sound.queued more.2) serial
    exact counted.congr rfl rfl
  · next done =>
    exact { sound with
      bound alive := by
        have counted := sound.bound alive
        rw [held] at counted
        exact counted.congr rfl rfl
      unbound dead := by
        obtain ⟨empty, dropped, cleared⟩ := sound.unbound dead
        refine ⟨empty, ?_, cleared⟩
        rw [held] at dropped
        exact dropped
      serial := serial
      drains alive some := by
        exact absurd ⟨some, alive⟩ done }

/-- The unbind clears the counters and the queue, and takes the frame in dispatch out of the
accounts. -/
theorem exists_releasePendingDispatch (counted : Counted b b.held) :
    ∃ drain : Drain, drain.work?.map RetainedDispatch.arrival = b.current ∧
      (∀ work ∈ drain.work?, work.accounted = false) ∧
      b.releasePendingDispatch =
        { b with
          bindingAlive := false
          dispatchDrain := drain
          pendingDispatches := []
          pendingFrames := fun _ => 0
          pendingBytes := fun _ => 0 } := by
  obtain ⟨alive, drain, pending, frames, bytes, arrivals, accepted, began, ended, effects⟩ := b
  have stopped : Counted
      ⟨false, drain, pending, frames, bytes, arrivals, accepted, began, ended, effects⟩
      (drain.work?.toList ++ pending) := counted.congr rfl rfl
  cases drain with
  | awaiting dispatch =>
    have rest : Counted _ pending := stopped.release
    refine ⟨.awaiting { dispatch with work := { dispatch.work with accounted := false } }, rfl,
      ?_, ?_⟩
    · rintro work ⟨⟩
      rfl
    · rw [stopped.release_eq] at rest
      simp only [Binding.releasePendingDispatch]
      rw [stopped.release_eq, Counted.foldl_release]
      · rfl
      · exact rest.congr rfl rfl
  | idle =>
    refine ⟨.idle, rfl, nofun, ?_⟩
    simp only [Binding.releasePendingDispatch]
    rw [Counted.foldl_release]
    exact stopped.congr rfl rfl
  | returned =>
    refine ⟨.returned, rfl, nofun, ?_⟩
    simp only [Binding.releasePendingDispatch]
    rw [Counted.foldl_release]
    exact stopped.congr rfl rfl

/-- Releasing what is queued keeps the binding sound. -/
theorem releasePendingDispatch (sound : Sound codec b) (alive : b.bindingAlive = true) :
    Sound codec b.releasePendingDispatch := by
  obtain ⟨drain, current, dropped, is⟩ := exists_releasePendingDispatch (sound.bound alive)
  rw [is]
  exact { sound with
    bound := nofun
    unbound := by
      refine fun _ => ⟨rfl, ?_, fun _ => ⟨rfl, rfl⟩⟩
      intro work mem
      exact dropped work (by simpa [Binding.held] using mem)
    queued := nofun
    serial := by
      refine sound.serial.trans ?_
      rw [← current]
      rfl
    drains := nofun }

/-- The drain of a dispatch in progress. -/
theorem awaiting_of_dispatch? {drain : Drain} (is : drain.dispatch? = some dispatch) :
    drain = .awaiting dispatch := by
  cases drain with
  | awaiting other => exact congrArg Drain.awaiting (Option.some.inj is)
  | idle => cases is
  | returned => cases is

/-- The step lemma: every action keeps the binding sound. -/
theorem step {b' : Binding} {a : IngressAction} (sound : Sound codec b)
    (taken : (ingress codec).step b a = some b') : Sound codec b' := by
  -- one case for each action; those of a dispatch need the drain to await it
  cases a with
  | message line =>
    simp only [ingress] at taken
    obtain ⟨alive, rfl⟩ := Machine.of_guard taken
    exact sound.onMessage alive
  | callHandler =>
    obtain ⟨dispatch, is, taken⟩ := Option.bind_eq_some_iff.mp taken
    rw [Binding.callHandler] at taken
    split at taken
    · cases taken
    · cases taken
      split
      · exact sound.proceed is rfl
      · exact sound.proceed is rfl
    · cases taken
  | handlerReturns consumes =>
    obtain ⟨dispatch, is, taken⟩ := Option.bind_eq_some_iff.mp taken
    rw [Binding.handlerReturns] at taken
    split at taken
    · cases taken
      exact sound.proceed is rfl
    · cases taken
  | handlerThrows =>
    obtain ⟨dispatch, is, taken⟩ := Option.bind_eq_some_iff.mp taken
    rw [Binding.handlerThrows] at taken
    split at taken
    · cases taken
      exact sound.proceed is rfl
    · cases taken
  | publish =>
    obtain ⟨dispatch, is, taken⟩ := Option.bind_eq_some_iff.mp taken
    rw [Binding.publish] at taken
    split at taken
    · cases taken
      exact sound.proceed is rfl
    · cases taken
  | resume =>
    obtain ⟨dispatch, is, taken⟩ := Option.bind_eq_some_iff.mp taken
    obtain ⟨_, rfl⟩ := Machine.of_guard taken
    exact sound.resume (awaiting_of_dispatch? is)
  | finalize =>
    simp only [ingress] at taken
    split at taken
    · next is =>
      cases taken
      exact sound.finalize is
    · cases taken
  | unbind =>
    simp only [ingress] at taken
    obtain ⟨alive, rfl⟩ := Machine.of_guard taken
    exact sound.releasePendingDispatch alive

/-- The binding is sound in every reachable state. -/
theorem reachable (reached : (ingress codec).Reachable b) : Sound codec b := by
  refine reached.invariant (I := Sound codec) ?_ ?_
  · rintro b rfl
    exact created
  · intro b a b' sound _ taken
    exact sound.step taken

/-- A binding that is gone dispatches nothing more, and calls and publishes nothing. -/
theorem step_unbound {b' : Binding} {a : IngressAction} (sound : Sound codec b)
    (dead : b.bindingAlive = false) (taken : (ingress codec).step b a = some b') :
    b'.bindingAlive = false ∧ b'.began = b.began ∧ b'.effects = b.effects := by
  have unbound : ¬ b.bindingAlive = true := Bool.eq_false_iff.mp dead
  cases a with
  | message line =>
    simp only [ingress, if_neg unbound] at taken
    cases taken
  | callHandler =>
    obtain ⟨dispatch, is, taken⟩ := Option.bind_eq_some_iff.mp taken
    rw [Binding.callHandler] at taken
    split at taken
    · cases taken
    · rw [if_neg unbound] at taken
      cases taken
      exact ⟨dead, rfl, rfl⟩
    · cases taken
  | handlerReturns consumes =>
    obtain ⟨dispatch, is, taken⟩ := Option.bind_eq_some_iff.mp taken
    rw [Binding.handlerReturns] at taken
    split at taken
    · cases taken
      exact ⟨dead, rfl, rfl⟩
    · cases taken
  | handlerThrows =>
    obtain ⟨dispatch, is, taken⟩ := Option.bind_eq_some_iff.mp taken
    rw [Binding.handlerThrows, dead, Bool.and_false] at taken
    split at taken
    · cases taken
      exact ⟨dead, rfl, rfl⟩
    · cases taken
  | publish =>
    obtain ⟨dispatch, is, taken⟩ := Option.bind_eq_some_iff.mp taken
    rw [Binding.publish, dead, Bool.false_and] at taken
    split at taken
    · cases taken
      exact ⟨dead, rfl, rfl⟩
    · cases taken
  | resume =>
    obtain ⟨dispatch, is, taken⟩ := Option.bind_eq_some_iff.mp taken
    obtain ⟨_, rfl⟩ := Machine.of_guard taken
    -- nothing is queued, and the cell has been released
    obtain ⟨empty, dropped, -⟩ := sound.unbound dead
    have unaccounted : dispatch.work.accounted = false := by
      refine dropped _ (List.mem_append_left _ ?_)
      rw [Drain.work?, is]
      exact List.mem_singleton.mpr rfl
    rw [Binding.resume, Binding.releaseDispatch, unaccounted, empty]
    exact ⟨dead, rfl, rfl⟩
  | finalize =>
    simp only [ingress] at taken
    split at taken
    · cases taken
      rw [Binding.finalize, if_neg fun more => unbound more.2]
      exact ⟨dead, rfl, rfl⟩
    · cases taken
  | unbind =>
    simp only [ingress, if_neg unbound] at taken
    cases taken

end Sound

/-! ## Whole runs -/

/-- The loop goes on with the first frame that is not an empty line. -/
theorem current_drainDispatches (alive : b.bindingAlive = true) :
    (b.drainDispatches codec cells).current = (waiting codec cells).head? := by
  induction cells generalizing b with
  | nil => rfl
  | cons work cells ih =>
    rw [Binding.drainDispatches, if_pos alive]
    cases started : work.start codec with
    | none =>
      have still : (b.releaseDispatch work).bindingAlive = true := by
        rw [Binding.releaseDispatch]
        split
        · exact alive
        · exact alive
      refine (ih still).trans ?_
      simp [waiting, started]
    | some dispatch =>
      simp [Binding.current, Drain.work?, Drain.dispatch?, exists_start started, waiting, started]

/-- What a drain keeps: the binding, the frames it has admitted and their effects so far. -/
structure Keeps (b b' : Binding) : Prop where
  alive : b'.bindingAlive = b.bindingAlive
  accepted : b'.accepted = b.accepted
  effects : b.effects ⊆ b'.effects

/-- Two steps that leave the queue alone leave it alone together. -/
theorem Keeps.trans {b' b'' : Binding} (first : Keeps b b') (second : Keeps b' b'') :
    Keeps b b'' where
  alive := second.alive.trans first.alive
  accepted := second.accepted.trans first.accepted
  effects := List.Subset.trans first.effects second.effects

/-- Releasing counted work leaves the queue. -/
theorem keeps_releaseDispatch : Keeps b (b.releaseDispatch work) := by
  rw [Binding.releaseDispatch]
  split
  · exact ⟨rfl, rfl, List.Subset.refl _⟩
  · exact ⟨rfl, rfl, List.Subset.refl _⟩

/-- Going on with a dispatch leaves the queue. -/
theorem keeps_proceed {effect : Bool} : Keeps b (b.proceed dispatch effect) := by
  refine ⟨rfl, rfl, ?_⟩
  rw [Binding.proceed]
  dsimp only
  split
  · exact List.subset_append_left _ _
  · exact List.Subset.refl _

/-- A drain takes note of nothing that ended. -/
theorem ended_drainDispatches : (b.drainDispatches codec cells).ended = b.ended := by
  induction cells generalizing b with
  | nil => rfl
  | cons work cells ih =>
    rw [Binding.drainDispatches]
    split
    · split
      · rfl
      · rw [ih, Binding.releaseDispatch]
        split
        · rfl
        · rfl
    · rfl

/-- A settled dispatch makes room for the next cell that waits. -/
theorem current_resume (alive : b.bindingAlive = true) :
    (b.resume codec dispatch).current = (waiting codec b.pendingDispatches).head? :=
  current_drainDispatches (keeps_releaseDispatch.alive.trans alive)

/-- A finalized drain starts again at the first cell that waits. -/
theorem current_finalize (alive : b.bindingAlive = true) :
    (b.finalize codec).current = (waiting codec b.pendingDispatches).head? := by
  rw [Binding.finalize]
  split
  · rw [Binding.ensureDispatchDrain]
    dsimp only
    rw [if_pos alive]
    exact current_drainDispatches alive
  · next done =>
    have empty : b.pendingDispatches = [] := by
      by_contra some
      exact done ⟨some, alive⟩
    rw [empty]
    rfl

/-! ### Steps of the drain -/

/-- A settled dispatch can be resumed. -/
theorem step_resume (codec : IngressCodec) (is : b.dispatchDrain = .awaiting dispatch)
    (stage : dispatch.stage = .settled) :
    (ingress codec).step b .resume = some (b.resume codec dispatch) := by
  simp only [ingress, is, Drain.dispatch?, Option.bind_some, if_pos stage]

/-- A returned drain can be finalized. -/
theorem step_finalize (codec : IngressCodec) (is : b.dispatchDrain = .returned) :
    (ingress codec).step b .finalize = some (b.finalize codec) := by
  simp only [ingress, is]

/-- A ready dispatch can be published. -/
theorem step_publish (codec : IngressCodec) (is : b.dispatchDrain = .awaiting dispatch)
    (stage : dispatch.stage = .ready) :
    (ingress codec).step b .publish =
      some (b.proceed { dispatch with stage := .settled }
        (b.bindingAlive && !dispatch.consumed)) := by
  simp only [ingress, is, Drain.dispatch?, Option.bind_some, Binding.publish, stage]

/-- A handler that is called can throw. -/
theorem step_handlerThrows (codec : IngressCodec) (is : b.dispatchDrain = .awaiting dispatch)
    (stage : dispatch.stage = .calling) :
    (ingress codec).step b .handlerThrows =
      some (b.proceed { dispatch with stage := .settled }
        (dispatch.kind == some .control && b.bindingAlive)) := by
  simp only [ingress, is, Drain.dispatch?, Option.bind_some, Binding.handlerThrows, stage]

/-- The kinds of frames that have handlers. -/
def IngressKind.Handled (kind : IngressKind) : Prop := kind ≠ .crossPc

/-- A ready dispatch can call its handler. -/
theorem step_callHandler (codec : IngressCodec) (alive : b.bindingAlive = true)
    (is : b.dispatchDrain = .awaiting dispatch) (stage : dispatch.stage = .ready)
    {kind : IngressKind} (decoded : dispatch.kind = some kind) (handled : kind.Handled) :
    (ingress codec).step b .callHandler =
      some (b.proceed { dispatch with stage := .calling } true) := by
  cases kind with
  | crossPc => exact absurd rfl handled
  | outer =>
    simp only [ingress, is, Drain.dispatch?, Option.bind_some, Binding.callHandler, stage, decoded,
      if_pos alive]
  | control =>
    simp only [ingress, is, Drain.dispatch?, Option.bind_some, Binding.callHandler, stage, decoded,
      if_pos alive]

/-! ### Progress -/

variable (codec) in
/-- The drain of a binding that is bound can go on until every frame has been dispatched. -/
structure Progress (b : Binding) : Prop where
  /-- A drain is running while frames are queued. -/
  running : b.pendingDispatches ≠ [] → b.dispatchDrain ≠ .idle
  /-- Where none is running, the dispatch of every admitted frame has ended. -/
  drained : b.dispatchDrain = .idle → b.ended = b.accepted
  /-- A drain that has returned starts again on what has been queued since. -/
  returned : b.dispatchDrain = .returned → ∃ b', (ingress codec).step b .finalize = some b' ∧
    b'.current = (waiting codec b.pendingDispatches).head?
  /-- Between two handlers the next one is called, or the frame is published. -/
  ready : ∀ dispatch, b.dispatchDrain = .awaiting dispatch → dispatch.stage = .ready →
    (∀ kind ∈ dispatch.kind, kind.Handled → ∃ b', (ingress codec).step b .callHandler = some b' ∧
      b'.dispatchDrain = .awaiting { dispatch with stage := .calling } ∧
      dispatch.work.arrival ∈ b'.effects) ∧
    ∃ b', (ingress codec).step b .publish = some b' ∧
      b'.dispatchDrain = .awaiting { dispatch with stage := .settled }
  /-- A handler that throws settles its dispatch, and the drain goes on with the next frame. -/
  throws : ∀ dispatch, b.dispatchDrain = .awaiting dispatch → dispatch.stage = .calling →
    ∃ b₁ b₂, (ingress codec).step b .handlerThrows = some b₁ ∧
      (ingress codec).step b₁ .resume = some b₂ ∧
      b₂.current = (waiting codec b.pendingDispatches).head?
  /-- A dispatch that has settled ends, and the drain goes on with the next frame. -/
  settled : ∀ dispatch, b.dispatchDrain = .awaiting dispatch → dispatch.stage = .settled →
    ∃ b', (ingress codec).step b .resume = some b' ∧
      b'.ended = b.ended ++ [dispatch.work.arrival] ∧
      b'.current = (waiting codec b.pendingDispatches).head?

/-- In an idle binding the dispatch of every frame has ended. -/
theorem Sound.ended_eq_accepted (sound : Sound codec b) (alive : b.bindingAlive = true)
    (idle : b.dispatchDrain = .idle) : b.ended = b.accepted := by
  have empty : b.pendingDispatches = [] := by
    by_contra some
    exact sound.drains alive some idle
  have queued := sound.queued alive
  have serial := sound.serial
  rw [empty] at queued
  rw [Binding.current, idle] at serial
  exact ((queued.trans (List.append_nil _)).trans (serial.trans (List.append_nil _))).symm

/-- A sound binding that is alive makes progress. -/
theorem Sound.progress (sound : Sound codec b) (alive : b.bindingAlive = true) :
    Progress codec b where
  running := sound.drains alive
  drained idle := sound.ended_eq_accepted alive idle
  returned is := ⟨_, step_finalize codec is, current_finalize alive⟩
  ready dispatch is stage := by
    refine ⟨fun kind decoded handled => ?_, _, step_publish codec is stage, rfl⟩
    exact ⟨_, step_callHandler codec alive is stage decoded handled, rfl,
      List.mem_append_right _ List.mem_cons_self⟩
  throws dispatch is stage :=
    ⟨_, _, step_handlerThrows codec is stage, step_resume codec rfl rfl, current_resume alive⟩
  settled dispatch is stage :=
    ⟨_, step_resume codec is stage, ended_drainDispatches, current_resume alive⟩

/-! ### Handlers that fail -/

/-- No frame arrives, the binding is kept, a frame that has handlers is not published without a
call, and no handler returns. -/
def Failing (b : Binding) : IngressAction → Prop
  | .callHandler | .handlerThrows | .resume | .finalize => True
  | .publish => ∀ dispatch, b.dispatchDrain = .awaiting dispatch →
    ∀ kind ∈ dispatch.kind, ¬kind.Handled
  | .message _ | .handlerReturns _ | .unbind => False

/-- A frame in dispatch settles when its handler fails, and not without an effect. -/
theorem exists_settled (codec : IngressCodec) (alive : b.bindingAlive = true)
    (is : b.dispatchDrain = .awaiting dispatch) :
    ∃ b', (ingress codec).RunsTo Failing b b' ∧ Keeps b b' ∧
      b'.dispatchDrain = .awaiting { dispatch with stage := .settled } ∧
      b'.pendingDispatches = b.pendingDispatches ∧
      (dispatch.stage = .ready → dispatch.consumed = false →
        dispatch.work.arrival ∈ b'.effects) := by
  cases stage : dispatch.stage with
  | settled =>
    refine ⟨b, .refl b, ⟨rfl, rfl, List.Subset.refl _⟩, is.trans ?_, rfl, nofun⟩
    rw [← stage]
  | calling =>
    have taken := step_handlerThrows codec is stage
    exact ⟨_, .head (a := .handlerThrows) trivial taken (.refl _), keeps_proceed, rfl, rfl, nofun⟩
  | ready =>
    by_cases handled : ∃ kind ∈ dispatch.kind, kind.Handled
    · obtain ⟨kind, decoded, handled⟩ := handled
      have called := step_callHandler codec alive is stage decoded handled
      have thrown := step_handlerThrows codec
        (b := b.proceed { dispatch with stage := .calling } true) rfl rfl
      refine ⟨_, .head (a := .callHandler) trivial called
        (.head (a := .handlerThrows) trivial thrown (.refl _)),
        keeps_proceed.trans keeps_proceed, rfl, rfl, fun _ _ => ?_⟩
      exact keeps_proceed.effects (List.mem_append_right _ List.mem_cons_self)
    · have taken := step_publish codec is stage
      refine ⟨_, .head ?_ taken (.refl _), keeps_proceed, rfl, rfl, fun _ unconsumed => ?_⟩
      · intro other awaited kind decoded isHandled
        cases is.symm.trans awaited
        exact handled ⟨kind, decoded, isHandled⟩
      · rw [alive, unconsumed]
        exact List.mem_append_right _ List.mem_cons_self

variable (codec) in
/-- A cell with a frame that can be decoded. -/
def Decodable (work : RetainedDispatch) : Prop :=
  ∃ dispatch, work.start codec = some dispatch ∧ dispatch.kind.isSome = true

/-- The dispatch of a frame that can be decoded begins before its first handler. -/
theorem ready_of_start (started : work.start codec = some dispatch)
    (decoded : dispatch.kind.isSome = true) :
    dispatch.stage = .ready ∧ dispatch.consumed = false := by
  rw [RetainedDispatch.start] at started
  split at started
  · obtain ⟨frame, -, rfl⟩ := Option.map_eq_some_iff.mp started
    exact ⟨rfl, rfl⟩
  · obtain ⟨line, -, rfl⟩ := Option.map_eq_some_iff.mp started
    exact ⟨if_pos decoded, rfl⟩

/-- A drain empties its queue though every handler fails, and each frame of it has an effect. -/
theorem exists_drained (codec : IngressCodec) (alive : b.bindingAlive = true)
    (cells : List RetainedDispatch) :
    ∃ b', (ingress codec).RunsTo Failing (b.drainDispatches codec cells) b' ∧ Keeps b b' ∧
      b'.dispatchDrain = .idle ∧
      ∀ work ∈ cells, Decodable codec work → work.arrival ∈ b'.effects := by
  induction cells generalizing b with
  | nil =>
    refine ⟨_, .head (a := .finalize) trivial (step_finalize codec rfl) (.refl _), ?_, ?_, nofun⟩
    · exact ⟨rfl, rfl, List.Subset.refl _⟩
    · rfl
  | cons work cells ih =>
    rw [Binding.drainDispatches, if_pos alive]
    cases started : work.start codec with
    | none =>
      obtain ⟨b', run, keeps, idle, effects⟩ := ih (keeps_releaseDispatch.alive.trans alive)
      refine ⟨b', run, keeps_releaseDispatch.trans keeps, idle, fun other mem decodable => ?_⟩
      rcases List.mem_cons.mp mem with rfl | later
      · obtain ⟨dispatch, starts, -⟩ := decodable
        cases started.symm.trans starts
      · exact effects other later decodable
    | some dispatch =>
      dsimp only
      -- the frame settles, and the loop goes on with the rest
      generalize is : ({ b with
        pendingDispatches := cells
        dispatchDrain := .awaiting dispatch
        began := b.began ++ [work.arrival] } : Binding) = b₀
      have begun : Keeps b b₀ := by
        subst is
        exact ⟨rfl, rfl, List.Subset.refl _⟩
      have awaits : b₀.dispatchDrain = .awaiting dispatch := by rw [← is]
      have pending : b₀.pendingDispatches = cells := by rw [← is]
      obtain ⟨b₁, settles, keeps, settled, same, effect⟩ :=
        exists_settled codec (begun.alive.trans alive) awaits
      have resumed := step_resume codec settled rfl
      rw [Binding.resume, same, pending] at resumed
      have released : Keeps b₁ { b₁.releaseDispatch dispatch.work with
          ended := b₁.ended ++ [dispatch.work.arrival] } :=
        ⟨keeps_releaseDispatch.alive, keeps_releaseDispatch.accepted, keeps_releaseDispatch.effects⟩
      have kept := (begun.trans keeps).trans released
      obtain ⟨b', run, keeps', idle, effects⟩ := ih (kept.alive.trans alive)
      refine ⟨b', settles.trans (.head (a := .resume) trivial resumed run), kept.trans keeps', idle,
        fun other mem decodable => ?_⟩
      rcases List.mem_cons.mp mem with rfl | later
      · obtain ⟨dispatch', starts, decoded⟩ := decodable
        obtain rfl : dispatch' = dispatch := Option.some.inj (starts.symm.trans started)
        obtain ⟨ready, unconsumed⟩ := ready_of_start started decoded
        have arrival : dispatch'.work.arrival = other.arrival := by rw [exists_start started]
        rw [← arrival]
        exact keeps'.effects (released.effects (effect ready unconsumed))
      · exact effects other later decodable

/-- Handlers that fail do not keep a frame from its dispatch. -/
theorem exists_dispatched (reached : (ingress codec).Reachable b) (alive : b.bindingAlive = true) :
    ∃ b', (ingress codec).RunsTo Failing b b' ∧ b'.ended = b.accepted ∧
      ∀ work ∈ b.pendingDispatches, Decodable codec work → work.arrival ∈ b'.effects := by
  have sound := Sound.reachable reached
  have drained : ∃ b', (ingress codec).RunsTo Failing b b' ∧ Keeps b b' ∧ b'.dispatchDrain = .idle ∧
      ∀ work ∈ b.pendingDispatches, Decodable codec work → work.arrival ∈ b'.effects := by
    cases is : b.dispatchDrain with
    -- no drain is running: nothing is queued
    | idle =>
      have empty : b.pendingDispatches = [] := by
        by_contra some
        exact sound.drains alive some is
      refine ⟨b, .refl b, ⟨rfl, rfl, List.Subset.refl _⟩, is, ?_⟩
      rw [empty]
      exact nofun
    -- the dispatch in hand settles, and the drain goes on with the queue
    | awaiting dispatch =>
      obtain ⟨b₁, settles, keeps, settled, same, -⟩ := exists_settled codec alive is
      have resumed := step_resume codec settled rfl
      rw [Binding.resume, same] at resumed
      have released : Keeps b₁ { b₁.releaseDispatch dispatch.work with
          ended := b₁.ended ++ [dispatch.work.arrival] } :=
        ⟨keeps_releaseDispatch.alive, keeps_releaseDispatch.accepted, keeps_releaseDispatch.effects⟩
      have kept := keeps.trans released
      obtain ⟨b', run, keeps', idle, effects⟩ :=
        exists_drained codec (kept.alive.trans alive) b.pendingDispatches
      exact ⟨b', settles.trans (.head (a := .resume) trivial resumed run), kept.trans keeps', idle,
        effects⟩
    -- a drain that has returned is finalized, and starts again on the queue
    | returned =>
      have finalized := step_finalize codec is
      rw [Binding.finalize] at finalized
      split at finalized
      · rw [Binding.ensureDispatchDrain] at finalized
        dsimp only at finalized
        rw [if_pos alive] at finalized
        obtain ⟨b', run, keeps, idle, effects⟩ :=
          exists_drained codec (b := { b with dispatchDrain := .idle }) alive
            b.pendingDispatches
        exact ⟨b', .head (a := .finalize) trivial finalized run,
          ⟨keeps.alive, keeps.accepted, keeps.effects⟩, idle, effects⟩
      · next done =>
        have empty : b.pendingDispatches = [] := by
          by_contra some
          exact done ⟨some, alive⟩
        refine ⟨_, .head (a := .finalize) trivial finalized (.refl _),
          ⟨rfl, rfl, List.Subset.refl _⟩, rfl, ?_⟩
        rw [empty]
        exact nofun
  obtain ⟨b', run, keeps, idle, effects⟩ := drained
  have sound' : Sound codec b' :=
    run.invariant (I := Sound codec) (fun _ _ _ sound _ taken => sound.step taken) sound
  have ended := sound'.ended_eq_accepted (keeps.alive.trans alive) idle
  exact ⟨b', run, ended.trans keeps.accepted, effects⟩

end Invariant

end OutpostPi.Pi.RelayIngress
