import OutpostPi.Lib.Machine

/-!
# The lock of the peer store

`withFileLock` takes a lock across processes by the atomic creation of a directory, into which
the holder writes its process id and a token. A lock that looks stale is reclaimed: a contender
leaves a marker in the directory, confirms what it inspected, renames the directory to a
quarantine path of its own, verifies what it moved, and deletes it or puts it back.

`lockMachine` takes one file-system access of one process at a time, with arbitrary delays in
between, and lets any process die. The age of a directory is up to the environment, and so are
inode numbers. The invariant is about live processes that hold the lock, from the creation of
the directory to the end of its release; `exclusive_of_safe_renames` follows as long as no
reclaimer moves the directory of such a process.
-/

set_option autoImplicit false

namespace OutpostPi.Pi

open OutpostPi.Lib

/-! ## Files -/

/-- The contents of `owner.json`. -/
structure PeerLockOwner where
  pid : Nat
  token : Nat
  deriving DecidableEq

/-- A lock directory: its inode, its owner file, its reclaim marker, and the process whose
`mkdir` made it. -/
structure LockDir where
  ino : Nat
  owner : Option PeerLockOwner
  marker : Option Nat
  maker : Nat
  deriving DecidableEq

/-- The lock path, and the quarantine path of each marker token. -/
structure LockFiles where
  lock : Option LockDir
  quarantine : Nat → Option LockDir

/-! ## Programs -/

/-- What a reclaimer remembers: the inode and owner that it inspected, and its marker. -/
structure Reclaim where
  ino : Nat
  inspectedOwner : Option PeerLockOwner
  markerToken : Nat
  deriving DecidableEq

/-- Where a process goes on after `removeReclaimMarkerIfOwned`. -/
inductive AfterMarker
  | retry
  | refuse
  | removeQuarantine (markerToken : Nat)
  deriving DecidableEq

/-- The next file-system access of a process. -/
inductive LockPc
  /-- Outside `withFileLock`. -/
  | idle
  -- `withFileLock` and `removeLockIfOwned`
  | acquire
  | writeOwner
  | operation (ownerToken : Nat)
  | readOwner (ownerToken : Nat)
  | removeLock
  -- `reclaimStaleLock`
  | statLock
  | inspectOwner (ino : Nat)
  | createMarker (ino : Nat) (inspectedOwner : Option PeerLockOwner)
  | confirmOwner (reclaim : Reclaim)
  | confirmStat (reclaim : Reclaim) (confirmedOwner : Option PeerLockOwner)
  | renameLock (reclaim : Reclaim) (confirmedOwner : Option PeerLockOwner)
  | readMovedOwner (reclaim : Reclaim)
  | readMovedMarker (reclaim : Reclaim) (movedOwner : Option PeerLockOwner)
  | statMoved (reclaim : Reclaim) (movedOwner : Option PeerLockOwner) (movedMarker : Option Nat)
  | removeReclaimed (markerToken : Nat)
  | refused
  -- `restoreQuarantinedLock`
  | restoreLock (markerToken : Nat)
  | restoreMarker (markerToken : Nat)
  | restoreOwner (markerToken : Nat)
  | removeQuarantine (markerToken : Nat)
  -- `removeReclaimMarkerIfOwned`
  | readMarker (markerToken : Nat) (after : AfterMarker)
  | unlinkMarker (after : AfterMarker)
  deriving DecidableEq

def AfterMarker.pc : AfterMarker → LockPc
  | .retry => .acquire
  | .refuse => .refused
  | .removeQuarantine markerToken => .removeQuarantine markerToken

/-- What the environment decides in one access: the inode of a new directory, and whether a
directory looks stale or a contender still waits. -/
structure LockChoice where
  ino : Nat
  yes : Bool
  deriving DecidableEq

/-- The generation test before and after the rename: the same owner token, or no owner in the
same inode. -/
def sameGeneration (reclaim : Reclaim) (owner : Option PeerLockOwner) (ino : Nat) : Bool :=
  match reclaim.inspectedOwner with
  | some inspected => owner.any fun found => found.token = inspected.token
  | none => owner.isNone && decide (ino = reclaim.ino)

/-- The owner is a live process. -/
def ownerIsAlive (alive : Nat → Bool) (owner : Option PeerLockOwner) : Bool :=
  owner.any fun found => alive found.pid

/-- One file-system access of the process `self`, with a token that nobody has drawn before. A
liveness test is taken together with the access after it: the dead stay dead, and a test that
finds its owner alive touches no file. -/
def lockAccess (self : Nat) (alive : Nat → Bool) (token : Nat) (choice : LockChoice)
    (files : LockFiles) : LockPc → LockFiles × LockPc
  | .idle => (files, .acquire)
  | .acquire =>
    match files.lock with
    | none => ({ files with lock := some ⟨choice.ino, none, none, self⟩ }, .writeOwner)
    | some _ => (files, .statLock)
  | .writeOwner =>
    match files.lock with
    | some dir =>
      ({ files with lock := some { dir with owner := some ⟨self, token⟩ } }, .operation token)
    | none => (files, .readOwner token)
  | .operation ownerToken => (files, .readOwner ownerToken)
  | .readOwner ownerToken =>
    if (files.lock.bind LockDir.owner).any fun owner => owner.token = ownerToken then
      (files, .removeLock)
    else (files, .idle)
  | .removeLock => ({ files with lock := none }, .idle)
  | .statLock =>
    match files.lock with
    | none => (files, .acquire)
    | some dir => if choice.yes then (files, .inspectOwner dir.ino) else (files, .refused)
  | .inspectOwner ino => (files, .createMarker ino (files.lock.bind LockDir.owner))
  | .createMarker ino inspectedOwner =>
    if ownerIsAlive alive inspectedOwner then (files, .refused)
    else
      match files.lock with
      | none => (files, .acquire)
      | some dir =>
        match dir.marker with
        | some _ => (files, .refused)
        | none =>
          ({ files with lock := some { dir with marker := some token } },
            .confirmOwner ⟨ino, inspectedOwner, token⟩)
  | .confirmOwner reclaim => (files, .confirmStat reclaim (files.lock.bind LockDir.owner))
  | .confirmStat reclaim confirmedOwner =>
    match files.lock with
    | none => (files, .readMarker reclaim.markerToken .retry)
    | some dir =>
      if sameGeneration reclaim confirmedOwner dir.ino then
        (files, .renameLock reclaim confirmedOwner)
      else (files, .readMarker reclaim.markerToken .refuse)
  | .renameLock reclaim confirmedOwner =>
    if ownerIsAlive alive confirmedOwner then (files, .readMarker reclaim.markerToken .refuse)
    else
      match files.lock with
      | none => (files, .readMarker reclaim.markerToken .retry)
      | some dir =>
        (⟨none, Function.update files.quarantine reclaim.markerToken (some dir)⟩,
          .readMovedOwner reclaim)
  | .readMovedOwner reclaim =>
    (files, .readMovedMarker reclaim
      ((files.quarantine reclaim.markerToken).bind LockDir.owner))
  | .readMovedMarker reclaim movedOwner =>
    (files, .statMoved reclaim movedOwner
      ((files.quarantine reclaim.markerToken).bind LockDir.marker))
  | .statMoved reclaim movedOwner movedMarker =>
    match files.quarantine reclaim.markerToken with
    | none => (files, .idle)
    | some dir =>
      if sameGeneration reclaim movedOwner dir.ino ∧ movedMarker = some reclaim.markerToken then
        (files, .removeReclaimed reclaim.markerToken)
      else (files, .restoreLock reclaim.markerToken)
  | .removeReclaimed markerToken =>
    ({ files with quarantine := Function.update files.quarantine markerToken none }, .acquire)
  | .refused => (files, if choice.yes then .acquire else .idle)
  | .restoreLock markerToken =>
    match files.lock with
    | none =>
      ({ files with lock := some ⟨choice.ino, none, none, self⟩ }, .restoreMarker markerToken)
    | some _ => (files, .refused)
  | .restoreMarker markerToken =>
    match files.lock with
    | none => (files, .idle)
    | some dir =>
      match dir.marker with
      | some _ => (files, .refused)
      | none =>
        ({ files with lock := some { dir with marker := some markerToken } },
          .restoreOwner markerToken)
  | .restoreOwner markerToken =>
    match files.lock, files.quarantine markerToken with
    | some dir, some moved =>
      match moved.owner with
      | some owner =>
        (⟨some { dir with owner := some owner },
          Function.update files.quarantine markerToken (some { moved with owner := none })⟩,
          .readMarker markerToken (.removeQuarantine markerToken))
      | none => (files, .readMarker markerToken (.removeQuarantine markerToken))
    | _, _ => (files, .readMarker markerToken (.removeQuarantine markerToken))
  | .removeQuarantine markerToken =>
    ({ files with quarantine := Function.update files.quarantine markerToken none }, .refused)
  | .readMarker markerToken after =>
    if files.lock.bind LockDir.marker = some markerToken then (files, .unlinkMarker after)
    else (files, after.pc)
  | .unlinkMarker after =>
    ({ files with lock := files.lock.map fun dir => { dir with marker := none } }, after.pc)

/-! ## All processes -/

structure LockWorld where
  files : LockFiles
  pcs : Nat → LockPc
  alive : Nat → Bool
  nextToken : Nat

inductive LockAction
  | access (process : Nat) (choice : LockChoice)
  | die (process : Nat)

/-- What an access of one process leaves. -/
def LockWorld.accessed (w : LockWorld) (process : Nat) (after : LockFiles × LockPc) : LockWorld :=
  { w with
    files := after.1
    pcs := Function.update w.pcs process after.2
    nextToken := w.nextToken + 1 }

/-- Any number of processes that start with no lock. -/
def lockMachine : Machine LockWorld LockAction where
  Init w :=
    w.files.lock = none ∧ (∀ token, w.files.quarantine token = none) ∧
      ∀ process, w.pcs process = .idle
  step w
    | .access process choice =>
      if w.alive process then
        some (w.accessed process
          (lockAccess process w.alive w.nextToken choice w.files (w.pcs process)))
      else none
    | .die process => some { w with alive := Function.update w.alive process false }

/-! ## Exclusion -/

/-- From the creation of the directory to the end of its release. -/
def LockPc.holds : LockPc → Bool
  | .writeOwner | .operation _ | .readOwner _ | .removeLock => true
  | _ => false

/-- The process runs the locked operation. -/
def LockPc.isOperation : LockPc → Bool
  | .operation _ => true
  | _ => false

/-- The next access is the rename of `reclaimStaleLock`. -/
def LockPc.renames (alive : Nat → Bool) : LockPc → Bool
  | .renameLock _ confirmedOwner => !ownerIsAlive alive confirmedOwner
  | _ => false

/-- The process whose `mkdir` made the directory at the lock path. -/
def LockFiles.maker (files : LockFiles) : Option Nat :=
  files.lock.map LockDir.maker

namespace LockWorld

/-- A live process holds the lock. -/
def holder (w : LockWorld) (process : Nat) : Prop :=
  w.alive process = true ∧ (w.pcs process).holds = true

/-- A live process runs the locked operation. -/
def running (w : LockWorld) (process : Nat) : Prop :=
  w.alive process = true ∧ (w.pcs process).isOperation = true

instance (w : LockWorld) (process : Nat) : Decidable (w.holder process) :=
  inferInstanceAs (Decidable (_ ∧ _))

instance (w : LockWorld) (process : Nat) : Decidable (w.running process) :=
  inferInstanceAs (Decidable (_ ∧ _))

/-- The lock path has the directory of every holder. -/
def Owned (w : LockWorld) : Prop :=
  ∀ process, w.holder process → w.files.maker = some process

end LockWorld

/-- The reclaimer renames no directory whose maker holds the lock. -/
def SafeRename (w : LockWorld) : LockAction → Prop
  | .access process _ =>
    (w.pcs process).renames w.alive = true → ∀ dir ∈ w.files.lock, ¬w.holder dir.maker
  | .die _ => True

instance (w : LockWorld) : ∀ action, Decidable (SafeRename w action)
  | .access _ _ => inferInstanceAs (Decidable (_ → _))
  | .die _ => .isTrue trivial

end OutpostPi.Pi
