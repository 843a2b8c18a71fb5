import OutpostPi.Lib.Machine
import Mathlib.Data.List.Nodup

/-!
# The shutdown for a fresh session

A managed process cannot replace its session in place. It fences the ingress, drains the
deliveries that it has admitted, stages the acknowledgement and the reset of the transcript,
disposes of its runtime and exits. `one_outcome_iff` says when each `session_new` then has one
outcome: the acknowledgement is staged before the disposal tells whether the runtime still owned
the session, so that a request whose runtime was replaced meanwhile is answered twice
(`answered_twice`).

What a promise that is already settled continues with belongs to the step that settles it.
-/

set_option autoImplicit false

namespace OutpostPi.Pi

open OutpostPi.Lib

/-! ## The coordinator -/

/-- What the ingress is fenced for. -/
inductive FenceReason
  | hotReload
  | freshSession
  deriving DecidableEq

/-- The reply to a request. -/
inductive ActionReply
  | ok
  | error
  deriving DecidableEq

/-- What `perform` awaits. -/
inductive TransitionPhase
  /-- The admitted deliveries to settle. -/
  | draining
  /-- The runtime to be disposed of. -/
  | disposing
  deriving DecidableEq

/-- The transition that a request has begun. -/
structure Transition where
  request : Nat
  /-- The runtime that the request found active. -/
  runtime : Option Nat
  phase : TransitionPhase
  /-- The reset of the transcript was staged. -/
  staged : Bool
  deriving DecidableEq

/-- The process, with what it has done so far. -/
structure FreshProcess where
  /-- `isRestartManaged`. -/
  managed : Bool
  fence : Option FenceReason
  transition : Option Transition
  /-- `_activeOutpostPiRuntime`. -/
  active : Option Nat
  /-- The runtime that owns the session. -/
  owner : Option Nat
  terminated : Bool
  /-- The requests so far, and their answers. -/
  requests : Nat
  replies : List (Nat × ActionReply)
  /-- The number of resets that were staged, and of calls of `terminate`. -/
  resets : Nat
  terminations : Nat
  deriving DecidableEq

/-- What can happen to the process. -/
inductive FreshEvent
  /-- A `session_new` arrives. -/
  | request
  /-- A hot reload installs its fence. -/
  | hotReload
  /-- Runtimes are activated, replaced or shut down. -/
  | ownership (active owner : Option Nat)
  /-- The drain settles. The channel takes the acknowledgement or fails, and so does the reset. -/
  | drained (acknowledged reset : Bool)
  /-- The disposal settles. `terminate` ends the process or fails. -/
  | disposed (ends : Bool)
  /-- The deadline passes first. -/
  | deadline (ends : Bool)
  deriving DecidableEq

namespace FreshProcess

/-- `runtime?.isOwner()`. -/
def owns (p : FreshProcess) (runtime : Option Nat) : Bool :=
  runtime.isSome && p.owner = runtime

/-- Reply to a request. -/
def answer (p : FreshProcess) (request : Nat) (reply : ActionReply) : FreshProcess :=
  { p with replies := p.replies ++ [(request, reply)] }

/-- `FreshSessionShutdownCoordinator.request`. Only a managed process answers that another request
owns the shutdown. -/
def begin (p : FreshProcess) (request : Nat) : FreshProcess :=
  if p.fence.isSome || p.transition.isSome then
    if p.managed then p.answer request .error else p
  else
    { p with
      fence := some .freshSession
      transition := some ⟨request, p.active, .draining, false⟩ }

/-- The handler of `session_new` without a command context. -/
def sessionNew (p : FreshProcess) : FreshProcess :=
  let request := p.requests
  let p := { p with requests := p.requests + 1 }
  if p.managed && !p.owns p.active then p.answer request .error else p.begin request

/-- A hot reload fences the ingress, unless a fence is there. -/
def beginHotReloadFence (p : FreshProcess) : FreshProcess :=
  if p.fence.isSome then p else { p with fence := some .hotReload }

/-- `terminate`. A failure rejects the transition and leaves the fence. -/
def terminate (p : FreshProcess) (ends : Bool) : FreshProcess :=
  { p with terminated := ends, terminations := p.terminations + 1, transition := none }

/-- `stageAcknowledgementAndReset`, which a bare process does not have. -/
def stage (p : FreshProcess) (t : Transition) (acknowledged reset : Bool) : FreshProcess :=
  if p.managed && acknowledged then
    let p := p.answer t.request .ok
    if reset then
      { p with transition := some { t with staged := true }, resets := p.resets + 1 }
    else p
  else p

/-- `shutdownRuntime`. The runtime is claimed at once, where it still owns the session. -/
def shutdownRuntime (p : FreshProcess) (t : Transition) : FreshProcess :=
  if p.owns t.runtime then { p with owner := none } else p

/-- The transition goes on to await the disposal. -/
def await (p : FreshProcess) : FreshProcess :=
  { p with transition := p.transition.map fun t => { t with phase := .disposing } }

/-- The disposal was refused, because another runtime owns the session. -/
def stale (p : FreshProcess) (request : Nat) : FreshProcess :=
  { p with fence := none, transition := none }.answer request .error

/-- `perform` after the drain. A bare process asks first whether its runtime is the owner, and a
disposal that is not needed has succeeded. -/
def perform (p : FreshProcess) (t : Transition) (acknowledged reset : Bool) : FreshProcess :=
  let p := p.stage t acknowledged reset
  if p.managed && !p.owns t.runtime then p.stale t.request
  else (p.shutdownRuntime t).await

/-- One step of the process. One that is terminated does nothing. -/
def step (p : FreshProcess) (event : FreshEvent) : Option FreshProcess :=
  if p.terminated then none
  else
    match event with
    | .request => some p.sessionNew
    | .hotReload => some p.beginHotReloadFence
    | .ownership active owner => some { p with active := active, owner := owner }
    | .drained acknowledged reset =>
      match p.transition with
      | some t => if t.phase = .draining then some (p.perform t acknowledged reset) else none
      | none => none
    | .disposed ends =>
      match p.transition with
      | some t => if t.phase = .disposing then some (p.terminate ends) else none
      | none => none
    | .deadline ends =>
      match p.transition with
      | some t => some ((p.shutdownRuntime t).terminate ends)
      | none => none

/-- A process whose runtime may or may not own a session. -/
def start (managed : Bool) (active owner : Option Nat) : FreshProcess :=
  ⟨managed, none, none, active, owner, false, 0, [], 0, 0⟩

end FreshProcess

/-- Requests, fences and the drain interleave freely. -/
def freshShutdown : Machine FreshProcess FreshEvent where
  Init p := ∃ managed active owner, p = .start managed active owner
  step := FreshProcess.step

/-! ## One outcome -/

/-- Every request has one outcome so far. -/
structure FreshProcess.OneOutcome (p : FreshProcess) : Prop where
  answered : (p.replies.map Prod.fst).Nodup
  /-- The reset is staged once. Where its transition is over the process has terminated. -/
  reset : p.resets ≤ 1 ∧
    (0 < p.resets → p.terminated = true ∨ ∃ t, p.transition = some t ∧ t.staged = true)
  terminations : p.terminations ≤ 1
  /-- A transition that is over without termination has cleared its fence. -/
  cleared : p.terminated = false → p.transition = none → p.fence ≠ some .freshSession

/-- The acknowledgement is staged by the owner of the session only, and `terminate` ends the
process. -/
def OwnedAndEnds (p : FreshProcess) (event : FreshEvent) : Prop :=
  p.terminated = false → ∀ t ∈ p.transition,
    match event with
    | .drained acknowledged _ => t.phase = .draining → p.managed = true → acknowledged = true →
      p.owns t.runtime = true
    | .disposed ends => t.phase = .disposing → ends = true
    | .deadline ends => ends = true
    | .request | .hotReload | .ownership _ _ => True

/-! ## Steps -/

namespace FreshProcess

variable {p p' : FreshProcess} {t : Transition} {event : FreshEvent}

/-- What holds of every run. -/
structure Kept (p : FreshProcess) : Prop where
  asked : ∀ reply ∈ p.replies, reply.1 < p.requests
  fenced : ∀ t ∈ p.transition, p.fence = some .freshSession ∧ t.request < p.requests ∧
    p.terminations = 0
  unanswered : ∀ t ∈ p.transition, t.phase = .draining →
    t.staged = false ∧ t.request ∉ p.replies.map Prod.fst
  ended : 0 < p.terminations →
    p.terminated = true ∨ p.fence = some .freshSession ∧ p.transition = none

theorem Kept.not_mem (kept : p.Kept) : p.requests ∉ p.replies.map Prod.fst := by
  intro mem
  obtain ⟨reply, here, same⟩ := List.mem_map.mp mem
  exact Nat.lt_irrefl _ (same ▸ kept.asked reply here)

theorem nodup_concat (distinct : (p.replies.map Prod.fst).Nodup) {request : Nat}
    (fresh : request ∉ p.replies.map Prod.fst) (reply : ActionReply) :
    ((p.replies ++ [(request, reply)]).map Prod.fst).Nodup := by
  simpa using List.Nodup.concat fresh distinct

/-! ### Requests -/

/-- A request is refused with an answer, ignored, or begins the transition. -/
theorem sessionNew_cases (p : FreshProcess) :
    p.sessionNew = { p with
      requests := p.requests + 1, replies := p.replies ++ [(p.requests, .error)] } ∨
    p.sessionNew = { p with requests := p.requests + 1 } ∨
    p.fence = none ∧ p.transition = none ∧ p.sessionNew = { p with
      requests := p.requests + 1
      fence := some .freshSession
      transition := some ⟨p.requests, p.active, .draining, false⟩ } := by
  simp only [sessionNew, begin]
  split
  · exact .inl rfl
  · split
    · split
      · exact .inl rfl
      · exact .inr (.inl rfl)
    · next free =>
      simp only [Bool.or_eq_true, not_or, Option.not_isSome_iff_eq_none] at free
      exact .inr (.inr ⟨free.1, free.2, rfl⟩)

theorem Kept.sessionNew (kept : p.Kept) (up : p.terminated = false) : p.sessionNew.Kept := by
  rcases sessionNew_cases p with same | same | ⟨unfenced, idle, same⟩
  · rw [same]
    constructor
    · intro reply mem
      rcases List.mem_append.mp mem with old | new
      · exact Nat.lt_succ_of_lt (kept.asked reply old)
      · obtain rfl := List.mem_singleton.mp new
        exact Nat.lt_succ_self _
    · intro t here
      obtain ⟨fence, request, none_⟩ := kept.fenced t here
      exact ⟨fence, Nat.lt_succ_of_lt request, none_⟩
    · intro t here draining
      obtain ⟨unstaged, fresh⟩ := kept.unanswered t here draining
      have other : t.request ≠ p.requests := Nat.ne_of_lt (kept.fenced t here).2.1
      refine ⟨unstaged, ?_⟩
      rw [List.map_append, List.mem_append, not_or]
      exact ⟨fresh, fun mem => other (List.mem_singleton.mp mem)⟩
    · exact kept.ended
  · rw [same]
    exact { kept with
      asked := fun reply mem => Nat.lt_succ_of_lt (kept.asked reply mem)
      fenced t here := by
        obtain ⟨fence, request, none_⟩ := kept.fenced t here
        exact ⟨fence, Nat.lt_succ_of_lt request, none_⟩ }
  · -- the fence is open, so that `terminate` has never failed
    have unended : p.terminations = 0 := by
      by_contra ended
      rcases kept.ended (Nat.pos_of_ne_zero ended) with done | ⟨fence, -⟩
      · exact nomatch up.symm.trans done
      · exact nomatch unfenced.symm.trans fence
    rw [same]
    constructor
    · exact fun reply mem => Nat.lt_succ_of_lt (kept.asked reply mem)
    · rintro t ⟨⟩
      exact ⟨rfl, Nat.lt_succ_self _, unended⟩
    · rintro t ⟨⟩ -
      exact ⟨rfl, kept.not_mem⟩
    · exact fun ended => absurd unended (Nat.ne_of_gt ended)

/-- A request is answered at most once, whatever is going on. -/
theorem OneOutcome.sessionNew (one : OneOutcome p) (kept : p.Kept) (up : p.terminated = false) :
    OneOutcome p.sessionNew := by
  rcases sessionNew_cases p with same | same | ⟨unfenced, idle, same⟩
  · rw [same]
    exact { one with answered := nodup_concat one.answered kept.not_mem _ }
  · rw [same]
    exact { one with }
  · have unstaged : ¬ 0 < p.resets := by
      intro staged
      rcases one.reset.2 staged with done | ⟨t, here, -⟩
      · exact nomatch up.symm.trans done
      · exact nomatch idle.symm.trans here
    rw [same]
    exact ⟨one.answered, ⟨one.reset.1, fun staged => absurd staged unstaged⟩, one.terminations,
      fun _ gone => (nomatch gone)⟩

/-! ### The drain -/

/-- What `perform` does, with the answers and the reset that it stages. -/
theorem perform_eq (here : p.transition = some t) (acknowledged reset : Bool) :
    p.perform t acknowledged reset =
      let answers := if p.managed && acknowledged then [(t.request, ActionReply.ok)] else []
      let stages := p.managed && acknowledged && reset
      if p.managed && !p.owns t.runtime then
        { p with
          fence := none
          transition := none
          replies := p.replies ++ answers ++ [(t.request, .error)]
          resets := p.resets + stages.toNat }
      else
        { p with
          owner := if p.owns t.runtime then none else p.owner
          transition := some { t with phase := .disposing, staged := t.staged || stages }
          replies := p.replies ++ answers
          resets := p.resets + stages.toNat } := by
  obtain ⟨managed, fence, transition, active, owner, terminated, requests, replies, resets,
    terminations⟩ := p
  obtain rfl : transition = some t := here
  -- whether the runtime owns the session does not depend on what is staged
  cases own : (t.runtime.isSome && decide (owner = t.runtime)) with
  | false =>
    cases managed <;> cases acknowledged <;> cases reset <;>
      simp [perform, stage, answer, stale, shutdownRuntime, await, owns, own]
  | true =>
    cases managed <;> cases acknowledged <;> cases reset <;>
      simp [perform, stage, answer, shutdownRuntime, await, owns, own]

theorem Kept.perform (kept : p.Kept) (here : p.transition = some t) (acknowledged reset : Bool) :
    (p.perform t acknowledged reset).Kept := by
  obtain ⟨fence, request, unended⟩ := kept.fenced t here
  have answers : ∀ reply ∈ p.replies ++
      (if p.managed && acknowledged then [(t.request, ActionReply.ok)] else []),
      reply.1 < p.requests := by
    intro reply mem
    rcases List.mem_append.mp mem with old | new
    · exact kept.asked reply old
    · split at new
      · obtain rfl := List.mem_singleton.mp new
        exact request
      · cases new
  rw [perform_eq here]
  dsimp only
  split
  · constructor
    · intro reply mem
      rcases List.mem_append.mp mem with old | new
      · exact answers reply old
      · obtain rfl := List.mem_singleton.mp new
        exact request
    · exact fun _ gone => (nomatch gone)
    · exact fun _ gone => (nomatch gone)
    · exact fun ended => absurd unended (Nat.ne_of_gt ended)
  · constructor
    · exact answers
    · rintro _ ⟨⟩
      exact ⟨fence, request, unended⟩
    · rintro _ ⟨⟩ draining
      cases draining
    · exact fun ended => absurd unended (Nat.ne_of_gt ended)

/-- Nothing is staged before the drain is over. -/
theorem OneOutcome.unstaged (one : OneOutcome p) (kept : p.Kept) (up : p.terminated = false)
    (here : p.transition = some t) (draining : t.phase = .draining) : p.resets = 0 := by
  by_contra staged
  rcases one.reset.2 (Nat.pos_of_ne_zero staged) with done | ⟨other, there, was⟩
  · exact nomatch up.symm.trans done
  · obtain rfl := Option.some.inj (here.symm.trans there)
    exact nomatch was.symm.trans (kept.unanswered t here draining).1

/-- The drain ends. The request is answered twice exactly when it is acknowledged by a runtime
that does not own the session any more. -/
theorem OneOutcome.perform_iff (one : OneOutcome p) (kept : p.Kept) (up : p.terminated = false)
    (here : p.transition = some t) (draining : t.phase = .draining) (acknowledged reset : Bool) :
    OneOutcome (p.perform t acknowledged reset) ↔
      (p.managed = true → acknowledged = true → p.owns t.runtime = true) := by
  have none_ := one.unstaged kept up here draining
  obtain ⟨unstaged, fresh⟩ := kept.unanswered t here draining
  rw [perform_eq here]
  dsimp only
  split
  · next lost =>
    obtain ⟨managed, lost⟩ : p.managed = true ∧ p.owns t.runtime = false := by simpa using lost
    cases acknowledged with
    | true =>
      refine iff_of_false (fun after => ?_) fun owned => ?_
      · have twice := after.answered
        simp [managed, List.nodup_append] at twice
      · exact nomatch lost.symm.trans (owned managed rfl)
    | false =>
      refine iff_of_true ⟨?_, ?_, one.terminations, fun _ _ => nofun⟩ fun _ acked => (nomatch acked)
      · simpa using nodup_concat one.answered fresh .error
      · simp [none_]
  · next owned =>
    have owned : p.managed = true → p.owns t.runtime = true := by simpa using owned
    refine iff_of_true ⟨?_, ?_, one.terminations, fun _ gone => (nomatch gone)⟩
      fun managed _ => owned managed
    · dsimp only
      split
      · exact nodup_concat one.answered fresh _
      · rw [List.append_nil]
        exact one.answered
    · rw [none_, Nat.zero_add]
      refine ⟨Bool.toNat_le _, fun staged => .inr ⟨_, rfl, ?_⟩⟩
      dsimp only at staged ⊢
      cases stages : p.managed && acknowledged && reset with
      | true => rw [Bool.or_true]
      | false => simp [stages] at staged

/-! ### The end -/

/-- `terminate`, after the runtime may have been claimed. -/
theorem Kept.terminate (kept : p.Kept) (here : p.transition = some t) (owner : Option Nat)
    (ends : Bool) : ({ p with owner := owner } : FreshProcess).terminate ends |>.Kept := by
  constructor
  · exact kept.asked
  · exact fun _ gone => (nomatch gone)
  · exact fun _ gone => (nomatch gone)
  · exact fun _ => .inr ⟨(kept.fenced t here).1, rfl⟩

theorem OneOutcome.terminate_iff (one : OneOutcome p) (kept : p.Kept)
    (here : p.transition = some t) (owner : Option Nat) (ends : Bool) :
    OneOutcome (({ p with owner := owner } : FreshProcess).terminate ends) ↔ ends = true := by
  obtain ⟨fence, -, unended⟩ := kept.fenced t here
  constructor
  · intro after
    by_contra fails
    have fails : ends = false := by simpa using fails
    exact after.cleared fails rfl fence
  · rintro rfl
    exact ⟨one.answered, ⟨one.reset.1, fun _ => .inl rfl⟩, Nat.le_of_eq (by
      rw [FreshProcess.terminate, unended]), fun up => (nomatch up)⟩

theorem shutdownRuntime_eq (p : FreshProcess) (t : Transition) :
    ∃ owner, p.shutdownRuntime t = { p with owner := owner } := by
  rw [shutdownRuntime]
  split
  · exact ⟨none, rfl⟩
  · exact ⟨p.owner, rfl⟩

/-! ## Steps and runs -/

/-- Every step keeps the invariant, and keeps one outcome exactly under the condition. -/
theorem step_iff (kept : p.Kept) (taken : p.step event = some p') :
    p'.Kept ∧ (OneOutcome p → (OneOutcome p' ↔ OwnedAndEnds p event)) := by
  unfold FreshProcess.step at taken
  split at taken
  · cases taken
  · next running =>
    have up : p.terminated = false := by simpa using running
    cases event with
    | request =>
      cases taken
      refine ⟨kept.sessionNew up, fun one => ?_⟩
      exact iff_of_true (one.sessionNew kept up) fun _ _ _ => trivial
    -- the fence goes up only where no transition is running
    | hotReload =>
      cases taken
      rw [beginHotReloadFence]
      split
      · exact ⟨kept, fun one => iff_of_true one fun _ _ _ => trivial⟩
      · next unfenced =>
        have unfenced : p.fence = none := by simpa using unfenced
        have idle : p.transition = none := by
          cases here : p.transition with
          | none => rfl
          | some t => exact nomatch unfenced.symm.trans (kept.fenced t here).1
        refine ⟨⟨kept.asked, fun t here => ?_, kept.unanswered, fun ended => ?_⟩, fun one => ?_⟩
        · exact nomatch idle.symm.trans here
        · rcases kept.ended ended with done | ⟨fence, -⟩
          · exact .inl done
          · exact nomatch unfenced.symm.trans fence
        · exact iff_of_true { one with cleared := fun _ _ => nofun }
            fun _ _ _ => trivial
    | ownership active owner =>
      cases taken
      refine ⟨{ kept with }, fun one => ?_⟩
      exact iff_of_true { one with }
        fun _ _ _ => trivial
    -- the drain is over: whether the runtime was reset decides on the outcome
    | drained acknowledged reset =>
      dsimp only at taken
      split at taken
      · next t here =>
        obtain ⟨draining, rfl⟩ := Machine.of_guard taken
        refine ⟨kept.perform here acknowledged reset, fun one => ?_⟩
        rw [one.perform_iff kept up here draining]
        constructor
        · intro owned _ other there _
          obtain rfl := Option.some.inj (here.symm.trans there)
          exact owned
        · exact fun ok => ok up t here draining
      · cases taken
    | disposed ends =>
      dsimp only at taken
      split at taken
      · next t here =>
        obtain ⟨disposing, rfl⟩ := Machine.of_guard taken
        refine ⟨kept.terminate here p.owner ends, fun one => ?_⟩
        rw [one.terminate_iff kept here p.owner]
        constructor
        · exact fun ends _ _ _ _ => ends
        · exact fun ok => ok up t here disposing
      · cases taken
    -- the deadline may come in any stage, and claims the runtime by itself
    | deadline ends =>
      dsimp only at taken
      split at taken
      · next t here =>
        cases taken
        obtain ⟨owner, claimed⟩ := shutdownRuntime_eq p t
        rw [claimed]
        refine ⟨kept.terminate here owner ends, fun one => ?_⟩
        rw [one.terminate_iff kept here owner]
        constructor
        · exact fun ends _ _ _ => ends
        · exact fun ok => ok up t here
      · cases taken

/-- A step that is not taken meets the condition. -/
theorem ownedAndEnds_of_none (none_ : p.step event = none) : OwnedAndEnds p event := by
  intro up t here
  unfold FreshProcess.step at none_
  rw [if_neg (by simp [up])] at none_
  cases event with
  | request => trivial
  | hotReload => trivial
  | ownership active owner => trivial
  | drained acknowledged reset =>
    intro draining
    have here : p.transition = some t := here
    simp [here, draining] at none_
  | disposed ends =>
    intro disposing
    have here : p.transition = some t := here
    simp [here, disposing] at none_
  | deadline ends =>
    have here : p.transition = some t := here
    simp [here] at none_

theorem kept_start (managed : Bool) (active owner : Option Nat) :
    (start managed active owner).Kept :=
  ⟨nofun, nofun, nofun, nofun⟩

theorem oneOutcome_start (managed : Bool) (active owner : Option Nat) :
    (start managed active owner).OneOutcome :=
  ⟨List.nodup_nil, ⟨Nat.zero_le 1, nofun⟩, Nat.zero_le 1, fun _ _ => nofun⟩

end FreshProcess

/-- Every request has one outcome throughout a run exactly when no runtime that was replaced
during the drain acknowledges its request, and `terminate` never fails. -/
theorem one_outcome_iff (managed : Bool) (active owner : Option Nat) (schedule : List FreshEvent) :
    freshShutdown.Throughout FreshProcess.OneOutcome (.start managed active owner) schedule ↔
      freshShutdown.Meets OwnedAndEnds (.start managed active owner) schedule :=
  Machine.throughout_iff_meets_within (I := FreshProcess.Kept)
    (fun _ _ _ kept taken => (FreshProcess.step_iff kept taken).1)
    (fun _ _ _ kept one taken => (FreshProcess.step_iff kept taken).2 one)
    (fun _ _ none_ => FreshProcess.ownedAndEnds_of_none none_)
    (FreshProcess.kept_start managed active owner)
    (FreshProcess.oneOutcome_start managed active owner)

/-- A request is answered twice. Its runtime is replaced during the drain: the acknowledgement
and the reset are out when the disposal is refused, and the process goes on. -/
theorem answered_twice :
    ∃ p, freshShutdown.exec (.start true (some 0) (some 0))
        [.request, .ownership (some 1) (some 1), .drained true true] = some p ∧
      p.replies = [(0, .ok), (0, .error)] ∧ p.resets = 1 ∧ p.terminated = false ∧
      p.transition = none ∧ ¬ p.OneOutcome := by
  refine ⟨_, rfl, rfl, rfl, rfl, rfl, fun one => ?_⟩
  have twice := one.answered
  revert twice
  decide

end OutpostPi.Pi
