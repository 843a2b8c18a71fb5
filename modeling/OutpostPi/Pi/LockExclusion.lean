import OutpostPi.Pi.PeersLock
import OutpostPi.Lib.Map
import Mathlib.Tactic.Common

/-!
# Exclusion of the locked operations

An access does one of three things to the lock path: it keeps the directory that is there, it
puts a directory of its own where there was none, or it empties the path, as the release of a
holder or as the rename of a reclaimer. As long as no reclaimer moves the directory of a live
holder, the path has the directory of each of them, so there is at most one.

The inode test admits a directory whose owner has not been written yet, so a reclaimer can move
the directory of a process that has just made it. `exists_two_running` is such a run.
-/

set_option autoImplicit false

namespace OutpostPi.Pi

open OutpostPi.Lib OutpostPi.Lib.Machine

/-! ## What one access does to the lock path -/

theorem AfterMarker.holds_pc (after : AfterMarker) : after.pc.holds = false := by
  cases after <;> rfl

theorem maker_of_lock {files : LockFiles} {dir : LockDir} (found : files.lock = some dir) :
    files.maker = some dir.maker := by
  rw [LockFiles.maker, found]
  rfl

theorem maker_of_lock_none {files : LockFiles} (absent : files.lock = none) :
    files.maker = none := by
  rw [LockFiles.maker, absent]
  rfl

/-- The access leaves the directory at the lock path where it is, and takes no lock. -/
def KeepsLock (files : LockFiles) (pc : LockPc) (after : LockFiles × LockPc) : Prop :=
  after.1.maker = files.maker ∧ (after.2.holds = true → pc.holds = true)

/-- The access puts a directory of the process where there was none. -/
def MakesLock (self : Nat) (files : LockFiles) (after : LockFiles × LockPc) : Prop :=
  files.maker = none ∧ after.1.maker = some self

/-- The access empties the lock path. -/
def EmptiesLock (alive : Nat → Bool) (files : LockFiles) (pc : LockPc)
    (after : LockFiles × LockPc) : Prop :=
  after.2.holds = false ∧
    (pc = .removeLock ∨ pc.renames alive = true ∧ ∃ dir, files.lock = some dir)

theorem lockAccess_cases (self : Nat) (alive : Nat → Bool) (token : Nat) (choice : LockChoice)
    (files : LockFiles) (pc : LockPc) :
    KeepsLock files pc (lockAccess self alive token choice files pc) ∨
      MakesLock self files (lockAccess self alive token choice files pc) ∨
      EmptiesLock alive files pc (lockAccess self alive token choice files pc) := by
  have kept : ∀ {after : LockFiles × LockPc}, after.1.maker = files.maker →
      after.2.holds = false → KeepsLock files pc after := by
    intro after same away
    refine ⟨same, fun holds => ?_⟩
    rw [away] at holds
    cases holds
  -- an access that finds nothing where it looks changes no file
  have edited : ∀ {dir : LockDir} {lock : LockDir} {quarantine : Nat → Option LockDir},
      files.lock = some dir → lock.maker = dir.maker →
      LockFiles.maker ⟨some lock, quarantine⟩ = files.maker := by
    intro dir lock quarantine found same
    rw [maker_of_lock found, ← same]
    rfl
  cases pc with
  | idle => exact .inl (kept rfl rfl)
  | acquire =>
    cases found : files.lock with
    | none =>
      refine .inr (.inl ⟨maker_of_lock_none found, ?_⟩)
      simp only [lockAccess, found]
      rfl
    | some dir =>
      simp only [lockAccess, found]
      exact .inl (kept rfl rfl)
  | writeOwner =>
    refine .inl ⟨?_, fun _ => rfl⟩
    cases found : files.lock with
    | none => simp only [lockAccess, found]
    | some dir =>
      simp only [lockAccess, found]
      exact edited found rfl
  | operation ownerToken => exact .inl ⟨rfl, fun _ => rfl⟩
  | readOwner ownerToken =>
    refine .inl ⟨?_, fun _ => rfl⟩
    simp only [lockAccess]
    split <;> rfl
  | removeLock => exact .inr (.inr ⟨rfl, .inl rfl⟩)
  | statLock =>
    simp only [lockAccess]
    split
    · exact .inl (kept rfl rfl)
    · split <;> exact .inl (kept rfl rfl)
  | inspectOwner ino => exact .inl (kept rfl rfl)
  | createMarker ino inspectedOwner =>
    simp only [lockAccess]
    split
    · exact .inl (kept rfl rfl)
    · split
      · exact .inl (kept rfl rfl)
      · rename_i dir found
        split
        · exact .inl (kept rfl rfl)
        · exact .inl (kept (edited found rfl) rfl)
  | confirmOwner reclaim => exact .inl (kept rfl rfl)
  | confirmStat reclaim confirmedOwner =>
    simp only [lockAccess]
    split
    · exact .inl (kept rfl rfl)
    · split <;> exact .inl (kept rfl rfl)
  | renameLock reclaim confirmedOwner =>
    simp only [lockAccess]
    split
    · exact .inl (kept rfl rfl)
    · rename_i dead
      split
      · exact .inl (kept rfl rfl)
      · rename_i dir found
        refine .inr (.inr ⟨rfl, .inr ⟨?_, dir, found⟩⟩)
        simpa [LockPc.renames] using dead
  | readMovedOwner reclaim => exact .inl (kept rfl rfl)
  | readMovedMarker reclaim movedOwner => exact .inl (kept rfl rfl)
  | statMoved reclaim movedOwner movedMarker =>
    simp only [lockAccess]
    split
    · exact .inl (kept rfl rfl)
    · split <;> exact .inl (kept rfl rfl)
  | removeReclaimed markerToken => exact .inl (kept rfl rfl)
  | refused =>
    refine .inl (kept rfl ?_)
    simp only [lockAccess]
    split <;> rfl
  | restoreLock markerToken =>
    cases found : files.lock with
    | none =>
      refine .inr (.inl ⟨maker_of_lock_none found, ?_⟩)
      simp only [lockAccess, found]
      rfl
    | some dir =>
      simp only [lockAccess, found]
      exact .inl (kept rfl rfl)
  | restoreMarker markerToken =>
    simp only [lockAccess]
    split
    · exact .inl (kept rfl rfl)
    · rename_i dir found
      split
      · exact .inl (kept rfl rfl)
      · exact .inl (kept (edited found rfl) rfl)
  | restoreOwner markerToken =>
    simp only [lockAccess]
    split
    · rename_i dir moved found _
      split
      · exact .inl (kept (edited found rfl) rfl)
      · exact .inl (kept rfl rfl)
    · exact .inl (kept rfl rfl)
  | removeQuarantine markerToken => exact .inl (kept rfl rfl)
  | readMarker markerToken after =>
    simp only [lockAccess]
    split
    · exact .inl (kept rfl rfl)
    · exact .inl (kept rfl after.holds_pc)
  | unlinkMarker after =>
    refine .inl (kept ?_ after.holds_pc)
    cases found : files.lock with
    | none =>
      simp only [lockAccess, found]
      exact (maker_of_lock_none found).symm
    | some dir =>
      simp only [lockAccess, found]
      exact edited found rfl

/-! ## Holders own the directory at the lock path -/

variable {w : LockWorld}

theorem lock_step_cases {w' : LockWorld} {action : LockAction}
    (taken : lockMachine.step w action = some w') :
    (∃ process choice, action = .access process choice ∧ w.alive process = true ∧
      w' = w.accessed process
        (lockAccess process w.alive w.nextToken choice w.files (w.pcs process))) ∨
    ∃ process, w' = { w with alive := Function.update w.alive process false } := by
  cases action with
  | access process choice =>
    simp only [lockMachine] at taken
    split at taken
    · rename_i living
      exact .inl ⟨process, choice, rfl, living, (Option.some.inj taken).symm⟩
    · cases taken
  | die process => exact .inr ⟨process, (Option.some.inj taken).symm⟩

/-- After an access, a holder is the process that took it, or it was a holder before. -/
theorem holder_accessed {self process : Nat} {after : LockFiles × LockPc}
    (held : (w.accessed self after).holder process) :
    process = self ∧ after.2.holds = true ∨ process ≠ self ∧ w.holder process := by
  obtain ⟨living, holds⟩ := held
  dsimp only [LockWorld.accessed] at living holds
  by_cases moved : process = self
  · subst moved
    rw [Function.update_self] at holds
    exact .inl ⟨rfl, holds⟩
  · rw [Function.update_of_ne moved] at holds
    exact .inr ⟨moved, living, holds⟩

theorem holder_of_died {self process : Nat}
    (held : ({ w with alive := Function.update w.alive self false } : LockWorld).holder process) :
    w.holder process := by
  obtain ⟨living, holds⟩ := held
  refine ⟨?_, holds⟩
  dsimp only at living
  by_cases moved : process = self
  · subst moved
    rw [Function.update_self] at living
    cases living
  · rwa [Function.update_of_ne moved] at living

theorem owned_init (initial : lockMachine.Init w) : w.Owned := by
  intro process held
  obtain ⟨-, -, idle⟩ := initial
  have holds := held.2
  rw [idle process] at holds
  cases holds

theorem owned_step {w' : LockWorld} {action : LockAction} (owned : w.Owned)
    (safe : SafeRename w action) (taken : lockMachine.step w action = some w') : w'.Owned := by
  intro process held
  rcases lock_step_cases taken with ⟨self, choice, rfl, living, rfl⟩ | ⟨self, rfl⟩
  · have before := holder_accessed held
    rcases lockAccess_cases self w.alive w.nextToken choice w.files (w.pcs self) with
      ⟨same, takes⟩ | ⟨free, mine⟩ | ⟨away, emptied⟩
    · refine same.trans (owned process ?_)
      rcases before with ⟨rfl, holds⟩ | ⟨-, before⟩
      · exact ⟨living, takes holds⟩
      · exact before
    · rcases before with ⟨rfl, -⟩ | ⟨-, before⟩
      · exact mine
      · have found := owned process before
        rw [free] at found
        cases found
    · rcases before with ⟨rfl, holds⟩ | ⟨other, before⟩
      · rw [away] at holds
        cases holds
      · have found := owned process before
        rcases emptied with releases | ⟨renames, dir, present⟩
        · -- a process that removes the lock is its only holder
          have own := owned self ⟨living, by rw [releases]; rfl⟩
          exact absurd (Option.some.inj (found.symm.trans own)) other
        · have maker := (maker_of_lock present).symm.trans found
          refine absurd before ?_
          rw [← Option.some.inj maker]
          exact safe renames dir present
  · exact owned process (holder_of_died held)

theorem running_holds {process : Nat} (runs : w.running process) : w.holder process := by
  obtain ⟨living, operates⟩ := runs
  refine ⟨living, ?_⟩
  cases found : w.pcs process with
  | operation ownerToken => rfl
  | _ =>
    rw [found] at operates
    cases operates

theorem owned_of_safe_renames (reached : lockMachine.ReachableUnder SafeRename w) : w.Owned :=
  reached.invariant (fun _ => owned_init) fun _ _ _ owned safe taken => owned_step owned safe taken

/-- Wherever no reclaimer has moved the directory of a live holder, at most one process runs the
locked operation. -/
theorem exclusive_of_safe_renames {w : LockWorld}
    (reached : lockMachine.ReachableUnder SafeRename w) {process other : Nat}
    (first : w.running process) (second : w.running other) : process = other := by
  have owned := owned_of_safe_renames reached
  have found := owned process (running_holds first)
  rw [owned other (running_holds second)] at found
  exact (Option.some.inj found).symm

/-- No lock, and every process is alive. -/
def unlocked : LockWorld :=
  ⟨⟨none, fun _ => none⟩, fun _ => .idle, fun _ => true, 0⟩

theorem init_unlocked : lockMachine.Init unlocked :=
  ⟨rfl, fun _ => rfl, fun _ => rfl⟩

/-- Process `0` dies after its `mkdir`; process `1` reclaims the directory and takes the lock. -/
def reclaimDead : List LockAction :=
  List.replicate 2 (.access 0 ⟨7, true⟩) ++ [.die 0] ++ List.replicate 14 (.access 1 ⟨8, true⟩)

theorem exclusive_of_safe_renames_reclaimed :
    ∃ w, lockMachine.ReachableUnder SafeRename w ∧ w.running 1 ∧
      ∀ other, w.running other → 1 = other := by
  have meets : lockMachine.Meets SafeRename unlocked reclaimDead := by decide
  have ran : (lockMachine.exec unlocked reclaimDead).any
      (fun w => decide (w.running 1)) = true := by decide
  obtain ⟨w, executed, running⟩ := (Option.any_eq_true _ _).mp ran
  have runs := of_decide_eq_true running
  have reached : lockMachine.ReachableUnder SafeRename w :=
    ⟨unlocked, init_unlocked, runsTo_of_exec meets executed⟩
  exact ⟨w, reached, runs, fun _ => exclusive_of_safe_renames reached runs⟩

/-! ## What an unsafe rename leads to -/

/-- Process `0` stops after its `mkdir`, process `1` inspects the directory without an owner,
process `0` writes its owner file and runs, process `1` moves the directory, and process `2`
takes the lock. -/
def reclaimLive : List LockAction :=
  List.replicate 2 (.access 0 ⟨7, true⟩) ++ List.replicate 7 (.access 1 ⟨8, true⟩) ++
    [.access 0 ⟨7, true⟩, .access 1 ⟨8, true⟩] ++ List.replicate 3 (.access 2 ⟨9, true⟩)

theorem exists_two_running :
    ∃ w, lockMachine.Reachable w ∧ w.running 0 ∧ w.running 2 := by
  have ran : (lockMachine.exec unlocked reclaimLive).any
      (fun w => decide (w.running 0 ∧ w.running 2)) = true := by decide
  obtain ⟨w, executed, running⟩ := (Option.any_eq_true _ _).mp ran
  exact ⟨w, reachable_of_exec init_unlocked executed, of_decide_eq_true running⟩

end OutpostPi.Pi
