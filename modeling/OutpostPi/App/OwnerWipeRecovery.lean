import OutpostPi.App.OwnerWipeRuns

/-!
# Every wipe can be completed

A calm run has no faults and no crashes: an initialisation is called, the initialisation and the
wipe go on, and the opens in flight end. From every state that a run can reach there is a calm run
to an initialised storage without a wipe, without the flag and with an open gate (`completes`). A
crash leads to such a state as well, so that a restart completes what a crash has left.
-/

set_option autoImplicit false

namespace OutpostPi.App.OwnerWipe

open OutpostPi.Lib

variable {digest : TranscriptSessionKey → Name} {s s' : LocalBoxes} {stage next : WipeStage}

/-! ## Calm runs -/

def Action.isCalm : Action → Bool
  | .init | .advanceInit | .advanceWipe | .hiveOpens _ | .openEnds _ => true
  | _ => false

/-- The storage serves its callers. -/
structure Ready (s : LocalBoxes) : Prop where
  initialized : s.initialized = true
  initialization : s.initialization = none
  wipe : s.wipe = none
  gate : s.gateClosed = false
  pending : s.wipePending = false

def Completes (digest : TranscriptSessionKey → Name) (s : LocalBoxes) : Prop :=
  ∃ t, (machine digest).RunsTo (fun _ a => a.isCalm = true) s t ∧ Ready t

theorem Ready.completes (ready : Ready s) : Completes digest s :=
  ⟨s, .refl s, ready⟩

theorem Completes.head {a : Action} (calm : a.isCalm = true) (taken : step digest s a = some s')
    (later : Completes digest s') : Completes digest s := by
  obtain ⟨t, run, ready⟩ := later
  exact ⟨t, .head calm taken run, ready⟩

/-! ## The initialisation without a wipe -/

theorem completes_of_provision (sound : Sound s) (under : s.initialization = some .provision) :
    Completes digest s := by
  obtain ⟨gate, pending, -⟩ := sound.free _ under rfl
  have taken : step digest s .advanceInit =
      some { s with initialized := true, initialization := none } := by
    rw [step, under]
    rfl
  refine .head rfl taken (Ready.completes ⟨rfl, rfl, ?_, gate, pending⟩)
  exact sound.no_wipe under fun same => by cases same

theorem completes_of_migrate (sound : Sound s) (under : s.initialization = some .migrate) :
    Completes digest s := by
  have taken : step digest s .advanceInit =
      some { s with migrated := true, initialization := some .provision } := by
    rw [step, under]
    rfl
  exact .head rfl taken (completes_of_provision (step_spec sound taken).1 rfl)

theorem completes_of_clearRuntime (sound : Sound s)
    (under : s.initialization = some .clearRuntime) : Completes digest s := by
  have taken : step digest s .advanceInit =
      some { s.clearBox .runtime with initialization := some .migrate } := by
    rw [step, under]
    rfl
  exact .head rfl taken (completes_of_migrate (step_spec sound taken).1 rfl)

variable {box : CommonBox}

/-- From one common box to the next. -/
theorem completes_of_openCommon (sound : Sound s)
    (under : s.initialization = some (.openCommon box))
    (later : ∀ t, Sound t → t.initialization = (match box.next with
      | some other => some (InitStage.openCommon other)
      | none => some .clearRuntime) → Completes digest t) : Completes digest s := by
  have taken : step digest s .advanceInit = s.advanceInit (.openCommon box) := by
    rw [step, under]
    rfl
  exact .head rfl taken (later _ (step_spec sound taken).1 rfl)

theorem completes_of_openBoxes (sound : Sound s)
    (under : s.initialization = some (.openCommon box)) : Completes digest s := by
  have runtime (t : LocalBoxes) (sound : Sound t)
      (under : t.initialization = some (.openCommon .runtime)) : Completes digest t :=
    completes_of_openCommon sound under fun _ sound under => completes_of_clearRuntime sound under
  have outbox (t : LocalBoxes) (sound : Sound t)
      (under : t.initialization = some (.openCommon .outbox)) : Completes digest t :=
    completes_of_openCommon sound under runtime
  cases box with
  | index => exact completes_of_openCommon sound under outbox
  | outbox => exact outbox s sound under
  | runtime => exact runtime s sound under

/-! ## The end of a wipe -/

theorem completes_of_unlatch (sound : Sound s) (under : s.wipe = some .unlatch) :
    Completes digest s := by
  have taken : step digest s .advanceWipe = some (s.wipeEffect .unlatch).endWipe := by
    rw [step, under, Option.bind_some, LocalBoxes.advanceWipe, if_neg (by simp)]
    rfl
  refine .head rfl taken ?_
  rcases (sound.wiping _ under).owned with initialized | waits
  · -- A wipe of the router, or one that a retry has resumed.
    refine Ready.completes ⟨initialized, ?_, rfl, rfl, rfl⟩
    have idle := (sound.provisioned initialized).2
    exact (if_neg (by rw [LocalBoxes.wipeEffect, idle]; simp)).trans idle
  · -- The initialisation has waited for it.
    exact completes_of_migrate (step_spec sound taken).1 (if_pos waits)

/-- The number of operations that are left once the boxes have been collected. -/
def WipeStage.rank : WipeStage → Nat
  | .clear .index names => 10 + 2 * names.length
  | .close .index names => 9 + 2 * names.length
  | .clear .outbox names => 8 + 2 * names.length
  | .close .outbox names => 7 + 2 * names.length
  | .clear .runtime names => 6 + 2 * names.length
  | .close .runtime names => 5 + 2 * names.length
  | .closeBox _ rest => 6 + 2 * rest.length
  | .deleteBox _ rest => 5 + 2 * rest.length
  | .reopen .index => 4
  | .reopen .outbox => 3
  | .reopen .runtime => 2
  | .clearRuntime => 1
  | _ => 0

theorem rank_nextDeletion (names : List Name) :
    (LocalBoxes.nextDeletion names).rank = 4 + 2 * names.length := by
  cases names with
  | nil => rfl
  | cons name rest =>
    rw [LocalBoxes.nextDeletion, WipeStage.rank, List.length_cons]
    omega

/-- Each operation that deletes or reopens leaves fewer. -/
theorem rank_afterStage {names : List Name} (collected : stage.remaining = some names)
    (after : s.afterStage digest stage = some next) :
    next.rank < stage.rank ∧ ∃ left, next.remaining = some left := by
  cases stage with
  | openMetadata | latch | drain | openCommon box | scan => cases collected
  | clear box boxes =>
    cases after
    refine ⟨?_, boxes, rfl⟩
    cases box <;>
    · simp only [WipeStage.rank]
      omega
  | close box boxes =>
    cases box with
    | index | outbox =>
      cases after
      refine ⟨?_, boxes, rfl⟩
      simp only [WipeStage.rank]
      omega
    | runtime =>
      cases after
      refine ⟨?_, boxes, remaining_nextDeletion boxes⟩
      rw [rank_nextDeletion, WipeStage.rank]
      omega
  | closeBox name rest =>
    cases after
    refine ⟨?_, name :: rest, rfl⟩
    simp only [WipeStage.rank]
    omega
  | deleteBox name rest =>
    cases after
    refine ⟨?_, rest, remaining_nextDeletion rest⟩
    rw [rank_nextDeletion, WipeStage.rank]
    omega
  | reopen box =>
    cases box <;> obtain rfl := Option.some.inj after <;>
      exact ⟨Nat.lt_succ_self _, [], rfl⟩
  | clearRuntime =>
    cases after
    exact ⟨Nat.lt_succ_self _, [], rfl⟩
  | unlatch => cases after

/-- One operation of the wipe, after which the rest completes. -/
theorem completes_of_advance (sound : Sound s) (under : s.wipe = some stage)
    (empty : stage = .drain → s.opens = []) (after : s.afterStage digest stage = some next)
    (later : ∀ t, Sound t → t.wipe = some next → t.opens = s.opens → Completes digest t) :
    Completes digest s := by
  have taken : step digest s .advanceWipe = some (s.proceed digest stage) := by
    rw [step, under]
    exact LocalBoxes.advanceWipe_eq_some.mpr ⟨empty, rfl⟩
  have goes : s.proceed digest stage = { s.wipeEffect stage with wipe := some next } := by
    rw [LocalBoxes.proceed, after]
  refine .head rfl taken (later _ (step_spec sound taken).1 ?_ ?_)
  · rw [goes]
  · rw [goes]
    exact (s.wipeEffect_frame stage).2.2.2.2.1

theorem completes_of_collected {names : List Name} (sound : Sound s) (under : s.wipe = some stage)
    (collected : stage.remaining = some names) : Completes digest s := by
  induction bound : stage.rank using Nat.strongRecOn generalizing s stage names with
  | ind n ih =>
    cases after : s.afterStage digest stage with
    | none =>
      rw [LocalBoxes.afterStage_eq_none after] at under
      exact completes_of_unlatch sound under
    | some next =>
      obtain ⟨fewer, left, still⟩ := rank_afterStage collected after
      have notDrain : stage ≠ .drain := by
        rintro rfl
        cases collected
      refine completes_of_advance sound under (fun is => absurd is notDrain) after ?_
      intro t sound under _
      exact ih next.rank (bound ▸ fewer) sound under still rfl

/-! ## The beginning of a wipe -/

theorem completes_of_scan (sound : Sound s) (under : s.wipe = some .scan) :
    Completes digest s :=
  completes_of_advance sound under (fun is => by cases is) rfl fun _ sound under _ =>
    completes_of_collected sound under rfl

theorem completes_of_opening (sound : Sound s) (under : s.wipe = some (.openCommon box)) :
    Completes digest s := by
  have runtime (t : LocalBoxes) (sound : Sound t) (under : t.wipe = some (.openCommon .runtime)) :
      Completes digest t :=
    completes_of_advance sound under (fun is => by cases is) rfl fun _ sound under _ =>
      completes_of_scan sound under
  have outbox (t : LocalBoxes) (sound : Sound t) (under : t.wipe = some (.openCommon .outbox)) :
      Completes digest t :=
    completes_of_advance sound under (fun is => by cases is) rfl fun t sound under _ =>
      runtime t sound under
  cases box with
  | index =>
    exact completes_of_advance sound under (fun is => by cases is) rfl fun t sound under _ =>
      outbox t sound under
  | outbox => exact outbox s sound under
  | runtime => exact runtime s sound under

/-- The opens in flight end one after the other, and nothing else holds the drain up. -/
theorem completes_of_drain (sound : Sound s) (under : s.wipe = some .drain) :
    Completes digest s := by
  have keyed (t : LocalBoxes) (sound : Sound t) (under : t.wipe = some .drain) :
      t.keyed = true := (sound.wiping _ under).keyed
  -- The last step of an open: the gate is closed, and the caller gets an error.
  have ends : ∀ (opens : List InFlightOpen),
      (∀ t, Sound t → t.wipe = some .drain → t.opens = opens → Completes digest t) →
        ∀ (t : LocalBoxes) (name : Name), Sound t → t.wipe = some .drain →
          t.opens = ⟨name, true⟩ :: opens → Completes digest t := by
    intro opens later t name sound under here
    have taken : step digest t (.openEnds 0) = some (t.endOpen 0 name) := by
      rw [step, here]
      rfl
    refine .head rfl taken (later _ (step_spec sound taken).1 under ?_)
    rw [LocalBoxes.endOpen, here]
    rfl
  induction flying : s.opens generalizing s with
  | nil =>
    exact completes_of_advance sound under (fun _ => flying) rfl fun _ sound under _ =>
      completes_of_opening sound under
  | cons o rest ih =>
    have later : ∀ t, Sound t → t.wipe = some .drain → t.opens = rest → Completes digest t :=
      fun t sound under here => ih sound under here
    obtain ⟨name, opened⟩ := o
    cases opened with
    | true => exact ends rest later s name sound under flying
    | false =>
      have taken : step digest s (.hiveOpens 0) =
          some { s.openBox name with opens := s.opens.set 0 ⟨name, true⟩ } := by
        rw [step, flying]
        exact if_pos (keyed s sound under)
      refine .head rfl taken (ends rest later _ name (step_spec sound taken).1 under ?_)
      rw [flying]
      rfl

theorem completes_of_wipe (sound : Sound s) (under : s.wipe = some stage) :
    Completes digest s := by
  have latch (t : LocalBoxes) (sound : Sound t) (under : t.wipe = some .latch) :
      Completes digest t :=
    completes_of_advance sound under (fun is => by cases is) rfl
      fun _ sound under _ => completes_of_drain sound under
  cases stage with
  | openMetadata =>
    exact completes_of_advance sound under (fun is => by cases is) rfl fun t sound under _ =>
      latch t sound under
  | latch => exact latch s sound under
  | drain => exact completes_of_drain sound under
  | openCommon box => exact completes_of_opening sound under
  | scan => exact completes_of_scan sound under
  | _ => exact completes_of_collected sound under rfl

/-! ## Retries and restarts -/

theorem wipe_startWipe (s : LocalBoxes) : ∃ stage, s.startWipe.wipe = some stage := by
  cases under : s.wipe with
  | none => exact ⟨_, by rw [LocalBoxes.startWipe, under]⟩
  | some stage => exact ⟨stage, by rw [LocalBoxes.startWipe, under]; exact under⟩

theorem completes_of_loadKey (sound : Sound s) (under : s.initialization = some .loadKey) :
    Completes digest s := by
  have taken : step digest s .advanceInit = s.advanceInit .loadKey := by
    rw [step, under]
    rfl
  by_cases pending : (s.gateClosed || s.wipePending) = true
  · have goes : s.advanceInit .loadKey =
        some { ({ s with keyed := true } : LocalBoxes).startWipe with
          initialization := some .awaitWipe } := if_pos pending
    obtain ⟨stage, wipes⟩ := wipe_startWipe { s with keyed := true }
    have later := sound.loadKey under goes
    exact .head rfl (taken.trans goes) (completes_of_wipe later wipes)
  · have goes : s.advanceInit .loadKey =
        some { s with keyed := true, initialization := some (.openCommon .index) } :=
      if_neg pending
    exact .head rfl (taken.trans goes) (completes_of_openBoxes (sound.loadKey under goes) rfl)

theorem completes_of_openMetadata (sound : Sound s)
    (under : s.initialization = some .openMetadata) : Completes digest s := by
  have taken : step digest s .advanceInit =
      some { s.openBox securityMeta with initialization := some .loadKey } := by
    rw [step, under]
    rfl
  exact .head rfl taken (completes_of_loadKey (step_spec sound taken).1 rfl)

theorem completes_of_initialization {stage : InitStage} (sound : Sound s) (idle : s.wipe = none)
    (under : s.initialization = some stage) : Completes digest s := by
  cases stage with
  | openMetadata => exact completes_of_openMetadata sound under
  | loadKey => exact completes_of_loadKey sound under
  | openCommon box => exact completes_of_openBoxes sound under
  | clearRuntime => exact completes_of_clearRuntime sound under
  | awaitWipe => exact absurd idle (sound.awaiting under)
  | migrate => exact completes_of_migrate sound under
  | provision => exact completes_of_provision sound under

theorem completes (sound : Sound s) : Completes digest s := by
  cases under : s.wipe with
  | some stage => exact completes_of_wipe sound under
  | none =>
    cases initialization : s.initialization with
    | some stage => exact completes_of_initialization sound under initialization
    | none =>
      have taken : step digest s .init = some s.startInit := rfl
      cases initialized : s.initialized with
      | false =>
        -- A restart, or a retry of an initialisation that has failed.
        refine .head rfl taken (completes_of_openMetadata sound.startInit ?_)
        rw [LocalBoxes.startInit, if_neg (by simp [initialized]), initialization]
      | true =>
        by_cases pending : (s.gateClosed || s.wipePending) = true
        · -- A retry after a wipe that has thrown.
          obtain ⟨stage, wipes⟩ := wipe_startWipe (s.openBox securityMeta)
          have under : s.startInit.wipe = some stage := by
            rw [LocalBoxes.startInit, if_pos initialized, LocalBoxes.convergePendingWipe]
            exact (congrArg LocalBoxes.wipe (if_pos pending)).trans wipes
          exact .head rfl taken (completes_of_wipe sound.startInit under)
        · obtain ⟨gate, flag⟩ : s.gateClosed = false ∧ s.wipePending = false := by
            simpa using pending
          exact Ready.completes ⟨initialized, initialization, under, gate, flag⟩

/-! ## The wipe -/

/-- While the flag is stored no open returns a box to its caller, when it is removed nothing of the
transcripts is left, and from every state, a crash in it included, a calm run completes. -/
theorem owner_wipe_complete (digest : TranscriptSessionKey → Name) {s : LocalBoxes}
    (reached : (machine digest).Reachable s) :
    (s.wipePending = true → ∀ a s', step digest s a = some s' →
      s'.served = s.served ∧ (s'.wipePending = false → Wiped digest s')) ∧
    Completes digest s ∧ Completes digest s.crash := by
  have sound := sound_reachable reached
  refine ⟨?_, completes sound, completes (sound_crash s)⟩
  intro pending a s' taken
  obtain ⟨served, still⟩ := (step_spec sound taken).2 pending
  refine ⟨served, ?_⟩
  intro removed
  rcases still with pending' | unlatches
  · rw [removed] at pending'
    cases pending'
  · exact wiped_of_unlatches sound unlatches taken

/-- A transcript box is open and indexed when the Owner key changes. -/
theorem owner_wipe_complete_latched :
    ∃ s : LocalBoxes, s.wipePending = true ∧ s.served ≠ [] ∧ s.index ≠ [] ∧
      ((∀ a s', step (fun key => key.sessionId.toList) s a = some s' →
          s'.served = s.served ∧
            (s'.wipePending = false → Wiped (fun key => key.sessionId.toList) s')) ∧
        Completes (fun key => key.sessionId.toList) s ∧
        Completes (fun key => key.sessionId.toList) s.crash) := by
  let digest : TranscriptSessionKey → Name := fun key => key.sessionId.toList
  let start : LocalBoxes :=
    { files := [], wipePending := false, migrated := true, index := [], outbox := 0 }
  let key : TranscriptSessionKey := ⟨"pi", "main", "s1"⟩
  have ran : (((machine digest).exec start (.init :: List.replicate 8 .advanceInit ++
      [.openBegins (.events key), .hiveOpens 0, .openEnds 0, .writeRow (some key), .wipe,
        .advanceWipe])).any fun s =>
      decide (s.wipePending = true ∧ s.served ≠ [] ∧ s.index ≠ [])) = true := by
    decide
  obtain ⟨s, executed, facts⟩ := (Option.any_eq_true _ _).mp ran
  obtain ⟨pending, served, index⟩ := of_decide_eq_true facts
  have initial : (machine digest).Init start := rfl
  have complete := owner_wipe_complete digest (Machine.reachable_of_exec initial executed)
  exact ⟨s, pending, served, index, complete.1 pending, complete.2⟩

end OutpostPi.App.OwnerWipe
