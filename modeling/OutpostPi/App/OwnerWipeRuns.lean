import OutpostPi.App.OwnerWipe
import Mathlib.Data.List.Basic

/-!
# The wipe of an Owner transition is complete

While the flag is stored, either the gate is closed or the process has no key (`Sound.guarded`), so
that no call of `_openEncrypted` returns a box. Past the drain nothing but the wipe writes, and what
it has still to delete covers every transcript file (`Done`). So the flag is removed only when there
is none and the index and the outbox are empty, and whatever has happened before, a calm run from
there ends in an initialised storage with an open gate (`Completes`).
-/

set_option autoImplicit false

namespace OutpostPi.App.OwnerWipe

open OutpostPi.Lib

variable {digest : TranscriptSessionKey → Name}

/-! ## Names -/

/-- The name of a transcript box is recognised. -/
theorem isTranscriptName_name (box : TranscriptBox) :
    isTranscriptName (box.name digest) = true := by
  cases box with
  | events key =>
    rw [isTranscriptName, Bool.or_eq_true]
    exact .inl (List.isPrefixOf_iff_prefix.mpr (List.prefix_append _ _))
  | messages ref =>
    rw [isTranscriptName, Bool.or_eq_true]
    exact .inr (List.isPrefixOf_iff_prefix.mpr (List.prefix_append _ _))

/-- The name of a common box is not taken for one. -/
theorem isTranscriptName_common (box : CommonBox) : isTranscriptName box.name = false := by
  cases box <;> decide

theorem isTranscriptName_securityMeta : isTranscriptName securityMeta = false := by decide

variable {name : Name}

/-- The scan finds the file of every transcript box. -/
theorem scannedName_boxFile (transcript : isTranscriptName name = true) :
    scannedName (boxFile name) = some name := by
  have suffix : hiveSuffix.isSuffixOf (boxFile name) = true :=
    List.isSuffixOf_iff_suffix.mpr (List.suffix_append _ _)
  have stem : (boxFile name).take ((boxFile name).length - hiveSuffix.length) = name := by
    rw [boxFile, List.length_append, Nat.add_sub_cancel, List.take_left]
  rw [scannedName, if_pos suffix, stem, if_pos transcript]

/-- Boxes of different names have different files. -/
theorem boxFile_injective {other : Name} (same : boxFile name = boxFile other) : name = other :=
  List.append_cancel_right same

namespace LocalBoxes

variable {s s' : LocalBoxes}

/-- Opening a box creates its file. -/
theorem mem_files_openBox {file : Name} :
    file ∈ (s.openBox name).files ↔ file = boxFile name ∨ file ∈ s.files := by
  rw [openBox]
  dsimp only
  split
  · next known =>
    constructor
    · exact .inr
    · rintro (rfl | mem)
      · exact known
      · exact mem
  · exact List.mem_cons

/-- Deleting a box removes its file, and no other. -/
theorem mem_files_deleteBox {file : Name} :
    file ∈ (s.deleteBox name).files ↔ file ∈ s.files ∧ file ≠ boxFile name := by
  rw [deleteBox, List.mem_filter, bne_iff_ne]

/-- A box that is no transcript box adds no transcript file. -/
theorem mem_files_of_openBox {other : Name} (plain : isTranscriptName other = false)
    (transcript : isTranscriptName name = true) (mem : boxFile name ∈ (s.openBox other).files) :
    boxFile name ∈ s.files := by
  rcases mem_files_openBox.mp mem with same | old
  · rw [boxFile_injective same, plain] at transcript
    cases transcript
  · exact old

/-- The scan finds every transcript box. -/
theorem mem_transcriptBoxes (transcript : isTranscriptName name = true)
    (mem : boxFile name ∈ s.files) : name ∈ s.transcriptBoxes digest := by
  refine mem_keepFirst_of_unique id (List.mem_append_right _ ?_) fun _ _ same => same
  exact List.mem_filterMap.mpr ⟨_, mem, scannedName_boxFile transcript⟩

end LocalBoxes

/-! ## What the wipe has done -/

namespace WipeStage

/-- How much is done: `1` the flag is stored, `2` no open is in flight, `3` the index is empty,
`4` the outbox is empty too. -/
def phase : WipeStage → Nat
  | .openMetadata | .latch => 0
  | .drain => 1
  | .openCommon _ | .scan | .clear .index _ => 2
  | .close .index _ | .clear .outbox _ => 3
  | _ => 4

/-- The boxes that are still to be deleted, once they have been collected. -/
def remaining : WipeStage → Option (List Name)
  | .openMetadata | .latch | .drain | .openCommon _ | .scan => none
  | .clear _ names | .close _ names => some names
  | .closeBox name rest | .deleteBox name rest => some (name :: rest)
  | .reopen _ | .clearRuntime | .unlatch => some []

end WipeStage

open WipeStage

/-- The deletions that remain cover the transcript files. -/
def Covers (remaining : Option (List Name)) (s : LocalBoxes) : Prop :=
  ∀ names, remaining = some names → ∀ name, isTranscriptName name = true →
    boxFile name ∈ s.files → name ∈ names

structure Done (stage : WipeStage) (s : LocalBoxes) : Prop where
  pending : 1 ≤ stage.phase → s.wipePending = true
  drained : 2 ≤ stage.phase → s.opens = []
  index : 3 ≤ stage.phase → s.index = []
  outbox : 4 ≤ stage.phase → s.outbox = 0
  covered : Covers stage.remaining s

theorem remaining_nextDeletion (names : List Name) :
    (LocalBoxes.nextDeletion names).remaining = some names := by
  cases names <;> rfl

theorem phase_nextDeletion (names : List Name) : (LocalBoxes.nextDeletion names).phase = 4 := by
  cases names <;> rfl

namespace Done

variable {stage next : WipeStage} {s s' : LocalBoxes}

/-- Nothing is undone, and what remains is covered. -/
theorem carry (done : Done stage s) (phase : next.phase ≤ stage.phase)
    (pending : s'.wipePending = s.wipePending) (opens : s'.opens = s.opens)
    (index : s'.index = s.index) (outbox : s'.outbox = s.outbox)
    (covered : Covers next.remaining s') : Done next s' where
  pending is := pending.trans (done.pending (Nat.le_trans is phase))
  drained is := opens.trans (done.drained (Nat.le_trans is phase))
  index is := index.trans (done.index (Nat.le_trans is phase))
  outbox is := outbox.trans (done.outbox (Nat.le_trans is phase))
  covered := covered

/-- Before the drain the stored flag is all that matters. -/
theorem of_not_drained (before : stage.phase < 2)
    (pending : 1 ≤ stage.phase → s.wipePending = true) : Done stage s := by
  refine ⟨pending, fun is => by omega, fun is => by omega, fun is => by omega, ?_⟩
  intro names is
  cases stage with
  | openMetadata | latch | drain => cases is
  | clear box | close box => cases box <;> simp [phase] at before
  | _ => simp [phase] at before

/-- What is still to be deleted covers fewer files as well. -/
theorem covers_mono {remaining : Option (List Name)} (covered : Covers remaining s)
    (files : ∀ name, isTranscriptName name = true → boxFile name ∈ s'.files →
      boxFile name ∈ s.files) : Covers remaining s' :=
  fun names is name transcript mem => covered names is name transcript (files name transcript mem)

/-- Each operation of the wipe does its part. -/
theorem advance (done : Done stage s) (empty : stage = .drain → s.opens = [])
    (after : s.afterStage digest stage = some next) : Done next (s.wipeEffect stage) := by
  cases stage with
  | openMetadata =>
    cases after
    exact of_not_drained (by decide) fun is => by cases is
  | latch =>
    cases after
    exact of_not_drained (by decide) fun _ => rfl
  | drain =>
    cases after
    exact ⟨fun _ => done.pending (Nat.le_refl _), fun _ => empty rfl, fun is => absurd is (by decide),
      fun is => absurd is (by decide), fun _ is => by cases is⟩
  | openCommon box =>
    cases box <;> obtain rfl := Option.some.inj after <;>
      exact done.carry (Nat.le_refl _) rfl rfl rfl rfl fun _ is => by cases is
  | scan =>
    cases after
    refine done.carry (Nat.le_refl _) rfl rfl rfl rfl ?_
    intro names is name transcript mem
    cases is
    exact LocalBoxes.mem_transcriptBoxes transcript mem
  | clear box names =>
    cases after
    cases box with
    | index =>
      exact ⟨fun _ => done.pending (by simp [phase]), fun _ => done.drained (Nat.le_refl _),
        fun _ => rfl, fun is => absurd is (by simp [phase]), done.covered⟩
    | outbox =>
      exact ⟨fun _ => done.pending (by simp [phase]), fun _ => done.drained (by simp [phase]),
        fun _ => done.index (Nat.le_refl _), fun _ => rfl, done.covered⟩
    | runtime => exact done.carry (Nat.le_refl _) rfl rfl rfl rfl done.covered
  | close box names =>
    cases box with
    | index | outbox =>
      cases after
      exact done.carry (Nat.le_refl _) rfl rfl rfl rfl done.covered
    | runtime =>
      cases after
      refine done.carry (Nat.le_of_eq (phase_nextDeletion names)) rfl rfl rfl rfl ?_
      rw [remaining_nextDeletion]
      exact done.covered
  | closeBox name rest =>
    cases after
    exact done.carry (Nat.le_refl _) rfl rfl rfl rfl done.covered
  | deleteBox name rest =>
    cases after
    refine done.carry (Nat.le_of_eq (phase_nextDeletion rest)) rfl rfl rfl rfl ?_
    rw [remaining_nextDeletion]
    -- The deleted file is the only one that the rest need not cover.
    intro names is other transcript mem
    cases is
    obtain ⟨old, apart⟩ := LocalBoxes.mem_files_deleteBox.mp mem
    rcases List.mem_cons.mp (done.covered _ rfl other transcript old) with rfl | later
    · exact absurd rfl apart
    · exact later
  | reopen box =>
    have covered : Covers (some []) (s.openBox box.name) := covers_mono done.covered
      fun name => LocalBoxes.mem_files_of_openBox (isTranscriptName_common box)
    cases box <;> obtain rfl := Option.some.inj after <;>
      exact done.carry (Nat.le_refl _) rfl rfl rfl rfl covered
  | clearRuntime =>
    cases after
    exact done.carry (Nat.le_refl _) rfl rfl rfl rfl done.covered
  | unlatch => cases after

end Done

/-! ## The invariant -/

/-- The initialisation has decided that no wipe is pending, or it has waited for one. -/
def InitStage.isFree : InitStage → Bool
  | .openMetadata | .loadKey | .awaitWipe => false
  | .openCommon _ | .clearRuntime | .migrate | .provision => true

/-- What holds of a wipe that is under way. -/
structure Wiping (stage : WipeStage) (s : LocalBoxes) : Prop where
  gated : s.gateClosed = true
  keyed : s.keyed = true
  owned : s.initialized = true ∨ s.initialization = some .awaitWipe
  done : Done stage s

structure Sound (s : LocalBoxes) : Prop where
  wiping : ∀ stage, s.wipe = some stage → Wiping stage s
  guarded : s.wipePending = true → s.gateClosed = true ∨ s.keyed = false
  provisioned : s.initialized = true → s.keyed = true ∧ s.initialization = none
  awaiting : s.initialization = some .awaitWipe → s.wipe ≠ none
  free : ∀ stage, s.initialization = some stage → stage.isFree = true →
    s.gateClosed = false ∧ s.wipePending = false ∧ s.keyed = true
  /-- Hive opens no encrypted box without the key. -/
  opened : ∀ o ∈ s.opens, o.opened = true → s.keyed = true

/-- A crash leaves a sound state. -/
theorem sound_crash (s : LocalBoxes) : Sound s.crash where
  wiping stage is := by cases is
  guarded _ := .inr rfl
  provisioned is := by cases is
  awaiting is := by cases is
  free stage is := by cases is
  opened o mem := by cases mem

namespace Sound

variable {s s' : LocalBoxes}

/-- Only what callers have got differs, or what the wipe does not read. -/
theorem congr (sound : Sound s) (wipe : s'.wipe = s.wipe) (gate : s'.gateClosed = s.gateClosed)
    (keyed : s'.keyed = s.keyed) (initialized : s'.initialized = s.initialized)
    (initialization : s'.initialization = s.initialization)
    (pending : s'.wipePending = s.wipePending) (opens : ∀ o ∈ s'.opens, o.opened = true →
      o ∈ s.opens ∨ s.keyed = true)
    (done : ∀ stage, s.wipe = some stage → Done stage s → Done stage s') : Sound s' where
  wiping stage is := by
    have here := sound.wiping stage (wipe ▸ is)
    refine ⟨gate.trans here.gated, keyed.trans here.keyed, ?_, done stage (wipe ▸ is) here.done⟩
    rw [initialized, initialization]
    exact here.owned
  guarded is := by
    rw [gate, keyed]
    exact sound.guarded (pending ▸ is)
  provisioned is := by
    rw [keyed, initialization]
    exact sound.provisioned (initialized ▸ is)
  awaiting is := by
    rw [wipe]
    exact sound.awaiting (initialization ▸ is)
  free stage is isFree := by
    rw [gate, pending, keyed]
    exact sound.free stage (initialization ▸ is) isFree
  opened o mem isOpened := by
    rw [keyed]
    rcases opens o mem isOpened with old | holds
    · exact sound.opened o old isOpened
    · exact holds

/-- No wipe is in progress while the gate is open. -/
theorem no_wipe_of_open (sound : Sound s) (gate : s.gateClosed = false) : s.wipe = none := by
  cases under : s.wipe with
  | none => rfl
  | some stage =>
    rw [(sound.wiping stage under).gated] at gate
    cases gate

/-- Without a wipe the contents of the disk are free. -/
theorem outside (sound : Sound s) (idle : s.wipe = none) (files openBoxes : List Name)
    (index : List (Option TranscriptSessionKey)) (outbox : Nat) (migrated : Bool) :
    Sound { s with
      files := files
      openBoxes := openBoxes
      index := index
      outbox := outbox
      migrated := migrated } := by
  refine sound.congr rfl rfl rfl rfl rfl rfl (fun o mem _ => .inl mem) fun stage under => ?_
  rw [idle] at under
  cases under

/-- A wipe begins behind a closed gate and with nothing done yet. -/
theorem startWipe (sound : Sound s) (keyed : s.keyed = true) (initialized : s.initialized = true) :
    Sound s.startWipe := by
  cases under : s.wipe with
  | some stage =>
    rw [LocalBoxes.startWipe, under]
    exact sound
  | none =>
    obtain ⟨-, idle⟩ := sound.provisioned initialized
    rw [LocalBoxes.startWipe, under]
    refine ⟨?_, fun _ => .inl rfl, fun _ => ⟨keyed, idle⟩, ?_, ?_, sound.opened⟩
    · intro stage is
      cases is
      refine ⟨rfl, keyed, .inl initialized, ?_⟩
      split
      · exact Done.of_not_drained (by decide) fun is => (by cases is)
      · exact Done.of_not_drained (by decide) fun is => (by cases is)
    · intro is
      rw [show s.initialization = some .awaitWipe from is] at idle
      cases idle
    · intro stage is
      rw [show s.initialization = some stage from is] at idle
      cases idle

/-- Hive opens a box of the app's own: no transcript file comes of it. -/
theorem openBox (sound : Sound s) (plain : isTranscriptName name = false) :
    Sound (s.openBox name) := by
  refine sound.congr rfl rfl rfl rfl rfl rfl (fun o mem _ => .inl mem) fun stage _ done => ?_
  exact done.carry (Nat.le_refl _) rfl rfl rfl rfl
    (Done.covers_mono done.covered fun _ => LocalBoxes.mem_files_of_openBox plain)

/-- Taking up a pending wipe keeps the state sound. -/
theorem convergePendingWipe (sound : Sound s) (initialized : s.initialized = true) :
    Sound s.convergePendingWipe := by
  have metadata := sound.openBox isTranscriptName_securityMeta
  rw [LocalBoxes.convergePendingWipe]
  split
  · exact metadata.startWipe (sound.provisioned initialized).1 initialized
  · exact metadata

/-- The initialisation goes on to a stage that needs nothing. -/
theorem initialise (sound : Sound s) (idle : s.wipe = none) (fresh : s.initialized = false)
    {stage : Option InitStage} (start : ∀ other, stage = some other →
      other = .openMetadata ∨ other = .loadKey) :
    Sound { s with initialization := stage } where
  wiping other is := by
    rw [show s.wipe = some other from is] at idle
    cases idle
  guarded := sound.guarded
  provisioned is := by
    rw [show s.initialized = true from is] at fresh
    cases fresh
  awaiting is := by
    rcases start _ is with same | same <;> cases same
  free other is isFree := by
    rcases start other is with rfl | rfl <;> cases isFree
  opened := sound.opened

variable {stage : InitStage}

/-- While the initialisation is under way and waits for no wipe, there is none. -/
theorem no_wipe (sound : Sound s) (under : s.initialization = some stage)
    (apart : stage ≠ .awaitWipe) : s.wipe = none := by
  cases wiping : s.wipe with
  | none => rfl
  | some other =>
    rcases (sound.wiping other wiping).owned with initialized | waits
    · rw [(sound.provisioned initialized).2] at under
      cases under
    · rw [under] at waits
      exact absurd (Option.some.inj waits) apart

theorem not_initialized (sound : Sound s) (under : s.initialization = some stage) :
    s.initialized = false := by
  rw [← Bool.not_eq_true]
  intro initialized
  rw [(sound.provisioned initialized).2] at under
  cases under

/-- A start of the app keeps the state sound. -/
theorem startInit (sound : Sound s) : Sound s.startInit := by
  rw [LocalBoxes.startInit]
  split
  · next initialized => exact sound.convergePendingWipe initialized
  · next fresh =>
    rw [Bool.not_eq_true] at fresh
    cases under : s.initialization with
    | some stage => exact sound
    | none =>
      have idle : s.wipe = none := by
        cases wiping : s.wipe with
        | none => rfl
        | some stage =>
          rcases (sound.wiping stage wiping).owned with initialized | waits
          · rw [fresh] at initialized
            cases initialized
          · rw [under] at waits
            cases waits
      exact sound.initialise idle fresh fun other is => .inl (Option.some.inj is).symm

/-- From one free stage to the next. -/
theorem advanceFree (sound : Sound s) (under : s.initialization = some stage)
    (isFree : stage.isFree = true) {next : InitStage} (nextFree : next.isFree = true) :
    Sound { s with initialization := some next } := by
  have facts := sound.free stage under isFree
  have idle := sound.no_wipe under fun same => by rw [same] at isFree; cases isFree
  have fresh := sound.not_initialized under
  refine ⟨?_, sound.guarded, ?_, ?_, fun _ _ _ => facts, sound.opened⟩
  · intro other is
    rw [show s.wipe = some other from is] at idle
    cases idle
  · intro is
    rw [show s.initialized = true from is] at fresh
    cases fresh
  · intro is
    rw [Option.some.inj is] at nextFree
    cases nextFree

/-- With the key, a pending wipe closes the gate at once. -/
theorem loadKey (sound : Sound s) (under : s.initialization = some .loadKey)
    (taken : s.advanceInit .loadKey = some s') : Sound s' := by
  have idle := sound.no_wipe under fun same => by cases same
  have fresh := sound.not_initialized under
  rw [LocalBoxes.advanceInit] at taken
  split at taken
  · cases taken
    rw [LocalBoxes.startWipe, show ({ s with keyed := true } : LocalBoxes).wipe = none from idle]
    refine ⟨?_, fun _ => .inl rfl, ?_, fun _ is => (by cases is), ?_, fun _ _ _ => rfl⟩
    · intro stage is
      cases is
      refine ⟨rfl, rfl, .inr rfl, ?_⟩
      split
      · exact Done.of_not_drained (by decide) fun is => (by cases is)
      · exact Done.of_not_drained (by decide) fun is => (by cases is)
    · intro is
      rw [show s.initialized = true from is] at fresh
      cases fresh
    · intro stage is isFree
      cases is
      cases isFree
  · next clear =>
    cases taken
    obtain ⟨gate, pending⟩ : s.gateClosed = false ∧ s.wipePending = false := by
      simpa using clear
    refine ⟨?_, ?_, ?_, fun is => (by cases is), fun _ _ _ => ⟨gate, pending, rfl⟩,
      fun _ _ _ => rfl⟩
    · intro stage is
      rw [show s.wipe = some stage from is] at idle
      cases idle
    · intro is
      rw [show s.wipePending = true from is] at pending
      cases pending
    · intro is
      rw [show s.initialized = true from is] at fresh
      cases fresh

/-- The initialization goes on. -/
theorem advanceInit (sound : Sound s) (under : s.initialization = some stage)
    (taken : s.advanceInit stage = some s') : Sound s' := by
  cases stage with
  | openMetadata =>
    cases taken
    have idle := sound.no_wipe under fun same => by cases same
    exact (sound.openBox isTranscriptName_securityMeta).initialise idle
      (sound.not_initialized under) fun other is => .inr (Option.some.inj is).symm
  | loadKey => exact sound.loadKey under taken
  | openCommon box =>
    cases taken
    have opened := sound.openBox (isTranscriptName_common box)
    cases box with
    | index | outbox | runtime => exact opened.advanceFree under rfl rfl
  | clearRuntime =>
    cases taken
    exact sound.advanceFree under rfl rfl
  | awaitWipe => cases taken
  | migrate =>
    cases taken
    have migrated : Sound { s with migrated := true } :=
      sound.congr rfl rfl rfl rfl rfl rfl (fun o mem _ => .inl mem) fun _ _ done =>
        done.carry (Nat.le_refl _) rfl rfl rfl rfl done.covered
    exact migrated.advanceFree under rfl rfl
  | provision =>
    cases taken
    have idle := sound.no_wipe under fun same => by cases same
    obtain ⟨gate, pending, keyed⟩ := sound.free _ under rfl
    refine ⟨?_, sound.guarded, fun _ => ⟨keyed, rfl⟩, fun is => (by cases is),
      fun _ is => (by cases is), sound.opened⟩
    intro stage is
    rw [show s.wipe = some stage from is] at idle
    cases idle

/-- The initialization fails, with its operation carried out or not. -/
theorem failInit (sound : Sound s) (under : s.initialization = some stage)
    (apart : stage ≠ .awaitWipe) (effected : Bool) :
    Sound { (if effected then s.initEffect stage else s) with initialization := none } := by
  have idle := sound.no_wipe under apart
  have fresh := sound.not_initialized under
  cases effected with
  | false => exact sound.initialise idle fresh fun _ is => by cases is
  | true =>
    cases stage with
    | openMetadata =>
      exact (sound.openBox isTranscriptName_securityMeta).initialise idle fresh
        fun _ is => by cases is
    | openCommon box =>
      exact (sound.openBox (isTranscriptName_common box)).initialise idle fresh
        fun _ is => by cases is
    | _ => exact sound.initialise idle fresh fun _ is => by cases is

/-! ## Steps of the wipe -/

/-- Without a wipe nothing is left of it but the gate and the flag. -/
theorem stop (sound : Sound s) {stage : WipeStage} (under : s.wipe = some stage) {t : LocalBoxes}
    (keyed : t.keyed = s.keyed) (initialized : t.initialized = s.initialized)
    (wipe : t.wipe = none) (opens : t.opens = s.opens) (waits : t.initialization ≠ some .awaitWipe)
    (gate : t.wipePending = true → t.gateClosed = true)
    (idle : s.initialization ≠ some .awaitWipe → t.initialization = s.initialization)
    (free : ∀ other, t.initialization = some other → other.isFree = true →
      t.gateClosed = false ∧ t.wipePending = false) : Sound t where
  wiping other is := by
    rw [wipe] at is
    cases is
  guarded is := .inl (gate is)
  provisioned is := by
    have facts := sound.provisioned (initialized ▸ is)
    refine ⟨keyed.trans facts.1, ?_⟩
    rw [idle, facts.2]
    rw [facts.2]
    exact fun same => by cases same
  awaiting is := absurd is waits
  free other is isFree := by
    obtain ⟨gateOpen, pending⟩ := free other is isFree
    exact ⟨gateOpen, pending, keyed.trans (sound.wiping stage under).keyed⟩
  opened o mem isOpened := by
    rw [keyed]
    exact sound.opened o (opens ▸ mem) isOpened

/-- An initialisation that is free while a wipe runs: there is none. -/
theorem not_free (sound : Sound s) {stage : WipeStage} (under : s.wipe = some stage)
    {other : InitStage} (initialization : s.initialization = some other) :
    other = .awaitWipe := by
  by_contra apart
  rw [sound.no_wipe initialization apart] at under
  cases under

end Sound

namespace LocalBoxes

/-- What no operation of the wipe changes. -/
theorem wipeEffect_frame (s : LocalBoxes) (stage : WipeStage) :
    (s.wipeEffect stage).keyed = s.keyed ∧ (s.wipeEffect stage).initialized = s.initialized ∧
      (s.wipeEffect stage).initialization = s.initialization ∧
      (s.wipeEffect stage).gateClosed = s.gateClosed ∧ (s.wipeEffect stage).opens = s.opens ∧
      (s.wipeEffect stage).served = s.served := by
  cases stage with
  | clear box names => cases box <;> exact ⟨rfl, rfl, rfl, rfl, rfl, rfl⟩
  | _ => exact ⟨rfl, rfl, rfl, rfl, rfl, rfl⟩

/-- The drain lets nothing through while an open is in flight. -/
theorem advanceWipe_eq_some {s s' : LocalBoxes} {stage : WipeStage} :
    s.advanceWipe digest stage = some s' ↔
      (stage = .drain → s.opens = []) ∧ s.proceed digest stage = s' := by
  rw [advanceWipe]
  split
  · next waits => exact ⟨fun is => (by cases is), fun facts => absurd (facts.1 waits.1) waits.2⟩
  · next goes =>
    rw [Option.some.injEq]
    exact (and_iff_right fun drains => by_contra fun opens => goes ⟨drains, opens⟩).symm

/-- No initialisation waits for a wipe that is over. -/
theorem endWipe_waits (s : LocalBoxes) : s.endWipe.initialization ≠ some .awaitWipe := by
  rw [endWipe]
  by_cases waits : s.initialization = some .awaitWipe
  · rw [if_pos waits]
    exact fun is => by cases is
  · rwa [if_neg waits]

theorem failWipe_waits (s : LocalBoxes) : s.failWipe.initialization ≠ some .awaitWipe := by
  rw [failWipe]
  by_cases waits : s.initialization = some .awaitWipe
  · rw [if_pos waits]
    exact fun is => by cases is
  · rwa [if_neg waits]

theorem afterStage_eq_none {s : LocalBoxes} {stage : WipeStage}
    (after : s.afterStage digest stage = none) : stage = .unlatch := by
  cases stage with
  | unlatch => rfl
  | openCommon box | close box names | reopen box => cases box <;> cases after
  | _ => cases after

end LocalBoxes

namespace Sound

variable {s s' : LocalBoxes} {stage : WipeStage}

/-- A wipe goes on. -/
theorem advanceWipe (sound : Sound s) (under : s.wipe = some stage)
    (taken : s.advanceWipe digest stage = some s') : Sound s' := by
  obtain ⟨empty, rfl⟩ := LocalBoxes.advanceWipe_eq_some.mp taken
  have here := sound.wiping stage under
  obtain ⟨keyed, initialized, initialization, gate, opens, -⟩ := s.wipeEffect_frame stage
  cases after : s.afterStage digest stage with
  | some next =>
    rw [LocalBoxes.proceed, after]
    refine ⟨?_, fun _ => .inl (gate.trans here.gated), ?_, fun _ is => (by cases is), ?_, ?_⟩
    · intro other is
      cases is
      refine ⟨gate.trans here.gated, keyed.trans here.keyed, ?_,
        (here.done.advance empty after).carry (Nat.le_refl _) rfl rfl rfl rfl
          (here.done.advance empty after).covered⟩
      rw [show ({ s.wipeEffect stage with wipe := some next } : LocalBoxes).initialized =
          s.initialized from initialized,
        show ({ s.wipeEffect stage with wipe := some next } : LocalBoxes).initialization =
          s.initialization from initialization]
      exact here.owned
    · intro is
      have facts := sound.provisioned (initialized.symm.trans is)
      exact ⟨keyed.trans facts.1, initialization.trans facts.2⟩
    · intro other is isFree
      rw [sound.not_free under (initialization.symm.trans is)] at isFree
      cases isFree
    · intro o mem isOpened
      exact keyed.trans here.keyed
  | none =>
    obtain rfl := LocalBoxes.afterStage_eq_none after
    rw [LocalBoxes.proceed, after]
    exact sound.stop under rfl rfl rfl rfl (LocalBoxes.endWipe_waits _) (fun is => (by cases is))
      (fun other => if_neg other) fun _ _ _ => ⟨rfl, rfl⟩

/-- A wipe fails, with its operation carried out or not. -/
theorem failWipe (sound : Sound s) (under : s.wipe = some stage) (effected : Bool) :
    Sound (if effected then s.wipeEffect stage else s).failWipe := by
  have here := sound.wiping stage under
  have same : ∀ t : LocalBoxes, t.keyed = s.keyed → t.initialized = s.initialized →
      t.initialization = s.initialization → t.gateClosed = s.gateClosed → t.opens = s.opens →
        Sound t.failWipe := by
    intro t keyed initialized initialization gate opens
    refine sound.stop under keyed initialized rfl opens t.failWipe_waits
      (fun _ => gate.trans here.gated) ?_ ?_
    · intro other
      rw [← initialization] at other
      exact (if_neg other).trans initialization
    · intro other is isFree
      dsimp only [LocalBoxes.failWipe] at is
      split at is
      · cases is
      · next apart =>
        exact absurd (is.trans (congrArg some
          (sound.not_free under (initialization.symm.trans is)))) apart
  cases effected with
  | false => exact same s rfl rfl rfl rfl rfl
  | true =>
    obtain ⟨keyed, initialized, initialization, gate, opens, -⟩ := s.wipeEffect_frame stage
    exact same _ keyed initialized initialization gate opens

/-! ## Opens of callers -/

/-- While an open is in flight the drain is not over. -/
theorem not_drained (sound : Sound s) (under : s.wipe = some stage) {o : InFlightOpen}
    (flying : o ∈ s.opens) : stage.phase < 2 := by
  by_contra drained
  rw [(sound.wiping stage under).done.drained (Nat.not_lt.mp drained)] at flying
  cases flying

/-- A box is opened. -/
theorem beginOpen (sound : Sound s) (name : Name) : Sound (s.beginOpen name) := by
  rw [LocalBoxes.beginOpen]
  split
  · exact sound
  · next opened =>
    refine sound.congr rfl rfl rfl rfl rfl rfl ?_ ?_
    · intro o mem isOpened
      rcases List.mem_cons.mp mem with rfl | old
      · cases isOpened
      · exact .inl old
    · intro stage under
      exact absurd (sound.wiping stage under).gated opened

/-- What happens to an open in flight leaves a wipe before its drain. -/
theorem flight (sound : Sound s) {o : InFlightOpen} (flying : o ∈ s.opens) {t : LocalBoxes}
    (wipe : t.wipe = s.wipe) (gate : t.gateClosed = s.gateClosed) (keyed : t.keyed = s.keyed)
    (initialized : t.initialized = s.initialized)
    (initialization : t.initialization = s.initialization)
    (pending : t.wipePending = s.wipePending)
    (opens : ∀ o ∈ t.opens, o.opened = true → o ∈ s.opens ∨ s.keyed = true) : Sound t := by
  refine sound.congr wipe gate keyed initialized initialization pending opens ?_
  intro stage under done
  exact Done.of_not_drained (sound.not_drained under flying) fun is =>
    pending.trans (done.pending is)

end Sound

/-! ## The flag and what callers get -/

/-- Neither the flag nor what callers have got changes. -/
def Keeps (s t : LocalBoxes) : Prop := t.wipePending = s.wipePending ∧ t.served = s.served

namespace LocalBoxes

theorem keeps_startWipe (s : LocalBoxes) : Keeps s s.startWipe := by
  rw [startWipe]
  split
  · exact ⟨rfl, rfl⟩
  · exact ⟨rfl, rfl⟩

theorem keeps_convergePendingWipe (s : LocalBoxes) : Keeps s s.convergePendingWipe := by
  rw [convergePendingWipe]
  split
  · exact (s.openBox securityMeta).keeps_startWipe
  · exact ⟨rfl, rfl⟩

theorem keeps_startInit (s : LocalBoxes) : Keeps s s.startInit := by
  rw [startInit]
  split
  · exact s.keeps_convergePendingWipe
  · split
    · exact ⟨rfl, rfl⟩
    · exact ⟨rfl, rfl⟩

theorem keeps_advanceInit {s s' : LocalBoxes} {stage : InitStage}
    (taken : s.advanceInit stage = some s') : Keeps s s' := by
  cases stage with
  | loadKey =>
    rw [advanceInit] at taken
    split at taken
    · cases taken
      exact ({ s with keyed := true } : LocalBoxes).keeps_startWipe
    · cases taken
      exact ⟨rfl, rfl⟩
  | awaitWipe => cases taken
  | _ =>
    cases taken
    exact ⟨rfl, rfl⟩

theorem keeps_initEffect (s : LocalBoxes) (stage : InitStage) : Keeps s (s.initEffect stage) := by
  cases stage <;> exact ⟨rfl, rfl⟩

/-- The removal of the flag is the only operation that lowers it. -/
theorem pending_wipeEffect {s : LocalBoxes} {stage : WipeStage} (pending : s.wipePending = true)
    (apart : stage ≠ .unlatch) : (s.wipeEffect stage).wipePending = true := by
  cases stage with
  | unlatch => exact absurd rfl apart
  | latch => rfl
  | clear box names => cases box <;> exact pending
  | _ => exact pending

end LocalBoxes

/-- The step is the one that removes the flag. -/
def Unlatches (s : LocalBoxes) (a : Action) : Prop :=
  s.wipe = some .unlatch ∧ (a = .advanceWipe ∨ a = .failWipe true)

/-- A step leads to a sound state. While the flag is stored no caller gets a box, and only the end
of a wipe removes the flag. -/
theorem step_spec {s s' : LocalBoxes} {a : Action} (sound : Sound s)
    (taken : step digest s a = some s') :
    Sound s' ∧ (s.wipePending = true →
      s'.served = s.served ∧ (s'.wipePending = true ∨ Unlatches s a)) := by
  have kept {t : LocalBoxes} (sound' : Sound t) (keeps : Keeps s t) :
      Sound t ∧ (s.wipePending = true →
        t.served = s.served ∧ (t.wipePending = true ∨ Unlatches s a)) :=
    ⟨sound', fun pending => ⟨keeps.2, .inl (keeps.1.trans pending)⟩⟩
  cases a with
  | crash =>
    cases taken
    exact kept (sound_crash s) ⟨rfl, rfl⟩
  | init =>
    cases taken
    exact kept sound.startInit s.keeps_startInit
  | retry =>
    cases taken
    split
    · next initialized =>
      exact kept (sound.convergePendingWipe initialized) s.keeps_convergePendingWipe
    · exact kept sound ⟨rfl, rfl⟩
  | wipe =>
    obtain ⟨initialized, rfl⟩ := Machine.of_guard taken
    exact kept (sound.startWipe (sound.provisioned initialized).1 initialized) s.keeps_startWipe
  | advanceInit =>
    obtain ⟨stage, under, taken⟩ := Option.bind_eq_some_iff.mp taken
    exact kept (sound.advanceInit under taken) (LocalBoxes.keeps_advanceInit taken)
  | failInit effected =>
    dsimp only [step] at taken
    split at taken
    · cases taken
    · cases taken
    · next stage apart under =>
      cases taken
      refine kept (sound.failInit under apart effected) ?_
      cases effected with
      | false => exact ⟨rfl, rfl⟩
      | true => exact s.keeps_initEffect stage
  | advanceWipe =>
    obtain ⟨stage, under, taken⟩ := Option.bind_eq_some_iff.mp taken
    refine ⟨sound.advanceWipe under taken, fun pending => ?_⟩
    obtain ⟨-, rfl⟩ := LocalBoxes.advanceWipe_eq_some.mp taken
    obtain ⟨-, -, -, -, -, served⟩ := s.wipeEffect_frame stage
    cases after : s.afterStage digest stage with
    | some next =>
      rw [LocalBoxes.proceed, after]
      refine ⟨served, .inl (LocalBoxes.pending_wipeEffect pending ?_)⟩
      rintro rfl
      cases after
    | none =>
      obtain rfl := LocalBoxes.afterStage_eq_none after
      exact ⟨rfl, .inr ⟨under, .inl rfl⟩⟩
  | failWipe effected =>
    obtain ⟨stage, under, rfl⟩ := Option.map_eq_some_iff.mp taken
    refine ⟨sound.failWipe under effected, fun pending => ?_⟩
    obtain ⟨-, -, -, -, -, served⟩ := s.wipeEffect_frame stage
    cases effected with
    | false => exact ⟨rfl, .inl pending⟩
    | true =>
      refine ⟨served, ?_⟩
      by_cases last : stage = .unlatch
      · exact .inr ⟨last ▸ under, .inr rfl⟩
      · exact .inl (LocalBoxes.pending_wipeEffect pending last)
  | migrateBox box | migrateRow row =>
    obtain ⟨migrates, rfl⟩ := Machine.of_guard taken
    have idle := sound.no_wipe migrates.1 fun same => by cases same
    exact kept (sound.outside idle _ _ _ _ _) ⟨rfl, rfl⟩
  | writeRow row | writeDelivery =>
    obtain ⟨opened, rfl⟩ := Machine.of_guard taken
    exact kept (sound.outside (sound.no_wipe_of_open opened.1) _ _ _ _ _) ⟨rfl, rfl⟩
  | openBegins box =>
    cases taken
    refine kept (sound.beginOpen _) ?_
    rw [LocalBoxes.beginOpen]
    split <;> exact ⟨rfl, rfl⟩
  | hiveOpens i =>
    dsimp only [step] at taken
    split at taken
    · next name here =>
      obtain ⟨keyed, rfl⟩ := Machine.of_guard taken
      exact kept (sound.flight (List.mem_of_getElem? here) rfl rfl rfl rfl rfl rfl
        fun _ _ _ => .inr keyed) ⟨rfl, rfl⟩
    · cases taken
  | hiveFails i effected =>
    dsimp only [step] at taken
    split at taken
    · next name here =>
      cases taken
      have flying := List.mem_of_getElem? here
      have rest : ∀ o ∈ s.opens.eraseIdx i, o.opened = true → o ∈ s.opens ∨ s.keyed = true :=
        fun o mem _ => .inl (List.mem_of_mem_eraseIdx mem)
      split <;> exact kept (sound.flight flying rfl rfl rfl rfl rfl rfl rest) ⟨rfl, rfl⟩
    · cases taken
  | openEnds i =>
    dsimp only [step] at taken
    split at taken
    · next name here =>
      cases taken
      have flying := List.mem_of_getElem? here
      refine ⟨sound.flight flying rfl rfl rfl rfl rfl rfl
        fun o mem _ => .inl (List.mem_of_mem_eraseIdx mem), fun pending => ?_⟩
      -- Hive has opened the box, so there is a key, and the stored flag closes the gate.
      have gate : s.gateClosed = true := (sound.guarded pending).resolve_right
        (by simp [sound.opened _ flying rfl])
      rw [LocalBoxes.endOpen, if_pos gate]
      exact ⟨rfl, .inl pending⟩
    · cases taken

/-- Every state that is reached is sound. -/
theorem sound_reachable {s : LocalBoxes} (reached : (machine digest).Reachable s) : Sound s := by
  refine reached.invariant ?_ fun t a t' sound _ taken => (step_spec sound taken).1
  intro t initial
  rw [show t = t.crash from initial]
  exact sound_crash t

/-- Nothing of the transcripts is left. -/
structure Wiped (digest : TranscriptSessionKey → Name) (s : LocalBoxes) : Prop where
  /-- Whether a row of the index named it or not. -/
  files : ∀ name, isTranscriptName name = true → boxFile name ∉ s.files
  boxes : ∀ box : TranscriptBox, boxFile (box.name digest) ∉ s.files
  index : s.index = []
  outbox : s.outbox = 0

/-- The step that takes the latch away finds the transcripts wiped. -/
theorem wiped_of_unlatches {s s' : LocalBoxes} {a : Action} (sound : Sound s)
    (unlatches : Unlatches s a) (taken : step digest s a = some s') : Wiped digest s' := by
  obtain ⟨under, action⟩ := unlatches
  have done := (sound.wiping _ under).done
  have none_left : ∀ name, isTranscriptName name = true → boxFile name ∉ s.files :=
    fun name transcript mem => List.not_mem_nil (done.covered [] rfl name transcript mem)
  have before : Wiped digest s :=
    ⟨none_left, fun box => none_left _ (isTranscriptName_name box), done.index (by decide),
      done.outbox (by decide)⟩
  rcases action with rfl | rfl
  · rw [step, under, Option.bind_some, LocalBoxes.advanceWipe, if_neg (by simp)] at taken
    cases taken
    exact { before with }
  · rw [step, under] at taken
    cases taken
    exact { before with }

end OutpostPi.App.OwnerWipe
