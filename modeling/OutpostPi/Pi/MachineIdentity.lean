import OutpostPi.Lib.Base64
import OutpostPi.Lib.Machine
import Mathlib.Logic.Function.Basic

/-!
# The identity of the machine

`getOrCreateEd25519Keypair` looks for the identity in a file and then in the platform keyring,
and creates one where both are empty. In the keyring it writes what it generated after an empty
read, in the file it creates the path exclusively.

`identityMachine` runs any number of calls in any number of processes over one keyring and one
file. A keyring operation may fail or time out, and a write that has timed out may still land.
Two first calls can return different keypairs (`exists_two_identities`): nothing excludes a
second writer between the empty read and the write. `one_identity_of_kept` says that all calls
agree as long as no step replaces the stored identity or hands out another one.
-/

set_option autoImplicit false

namespace OutpostPi.Pi

open OutpostPi.Lib

/-! ## Keypairs -/

/-- The keys of a Pi. -/
structure Ed25519Keypair where
  publicKey : List UInt8
  secretKey : List UInt8
  deriving DecidableEq

/-- A keypair as it is stored, in base64. -/
structure SerializedKeypair where
  pk : String
  sk : String
  deriving DecidableEq

/-- The stored form of a keypair. -/
def serialize (kp : Ed25519Keypair) : SerializedKeypair :=
  ⟨Base64.encode kp.publicKey, Base64.encode kp.secretKey⟩

/-- The keypair of a stored form. Characters that are no base64 are skipped, and nothing is checked. -/
def deserialize (stored : SerializedKeypair) : Ed25519Keypair :=
  ⟨Base64.decode stored.pk, Base64.decode stored.sk⟩

/-- A key pair survives its serialization. -/
@[simp]
theorem deserialize_serialize (kp : Ed25519Keypair) : deserialize (serialize kp) = kp := by
  simp [serialize, deserialize, Base64.decode_encode]

/-- Different key pairs are serialized differently. -/
theorem serialize_injective : Function.Injective serialize :=
  Function.LeftInverse.injective deserialize_serialize

/-! ## Calls -/

/-- Why no identity is returned. -/
inductive IdentityError
  | keyringUnavailable (cause : String)
  | pairedIdentityMissing (pairedCount : Nat) (cause : String)
  | fileExists
  deriving DecidableEq

/-- Where a call stands: the operation that it carries out next or waits for. -/
inductive IdentityPhase
  | readFile
  | readKeyring (attempt : Nat)
  | checkRoster (attempt : Nat)
  | awaitWrite (attempt : Nat)
  | rereadFile
  | fork
  | openFile (fresh : Ed25519Keypair)
  | writeFile (fresh : Ed25519Keypair)
  | readWinner (attempt : Nat)
  | returned (kp : Ed25519Keypair)
  | threw (error : IdentityError)
  deriving DecidableEq

/-- A call of a process, with the keypair that it would create and the last error of the keyring. -/
structure IdentityCall where
  process : Nat
  phase : IdentityPhase
  creationCandidate : Option Ed25519Keypair
  keyringError : String
  deriving DecidableEq

/-! ## Processes and what they share -/

/-- The platforms on which a keyring is expected, and all others. -/
inductive Platform
  | darwin
  | win32
  | other
  deriving DecidableEq

/-- The native keyring module of a process. It is imported once. -/
inductive NativeBinding
  | unloaded
  | loaded
  | unavailable
  deriving DecidableEq

/-- A write handed to the keyring, with the attempt that it was made in. -/
structure PendingWrite where
  caller : Nat
  attempt : Nat
  value : SerializedKeypair
  deriving DecidableEq

/-- A process. Its writes run one after the other, also those whose caller has given up. -/
structure IdentityProcess where
  platform : Platform
  /-- `OUTPOST_PI_ALLOW_FILE_IDENTITY=1`. -/
  forceFile : Bool
  binding : NativeBinding
  writeTail : List PendingWrite
  deriving DecidableEq

/-- The identity file. It is empty between its exclusive creation and the write of its creator. -/
inductive IdentityFile
  | absent
  | creating (creator : Nat)
  | written (content : SerializedKeypair)
  deriving DecidableEq

/-- What the processes of a user share, and their calls. -/
structure IdentityState where
  keyring : Option SerializedKeypair
  identityFile : IdentityFile
  /-- The number of paired devices. -/
  roster : Nat
  processes : Nat → IdentityProcess
  calls : Nat → Option IdentityCall

/-- What can happen between two operations of the calls. -/
inductive IdentityAction
  /-- A process starts a call. -/
  | call (c p : Nat)
  /-- A call carries out its next operation. `fresh` is what a generator would return. -/
  | advance (c : Nat) (fresh : Ed25519Keypair)
  /-- The keyring operation that a call waits for fails or times out. -/
  | fault (c : Nat) (error : String)
  /-- The oldest write of a process lands, or fails in the keyring. -/
  | completeWrite (p : Nat) (error : Option String)
  | importBinding (p : Nat) (loads : Bool)
  | addPeer

/-- How often the keyring is read before a call gives up on it. -/
def keyringReadAttempts : Nat := 3

/-- The reads that `_mintKeypairToFileExclusive` makes of the winner's file. -/
def winnerReadAttempts : Nat := 6

/-- Where a failed attempt goes on. -/
def retry (attempt : Nat) : IdentityPhase :=
  if attempt + 1 < keyringReadAttempts then .readKeyring (attempt + 1) else .rereadFile

/-- A keyring that cannot be read is an error there, not a sign that there is none. -/
def IdentityProcess.keyringExpectedAvailable (process : IdentityProcess) : Bool :=
  process.binding ≠ .unavailable && (process.platform = .darwin || process.platform = .win32)

namespace IdentityState

/-- The keypair of the identity file, once it is written. -/
def readKeypairFromFile (s : IdentityState) : Option Ed25519Keypair :=
  match s.identityFile with
  | .written content => some (deserialize content)
  | _ => none

/-- A call goes on. -/
def setCall (s : IdentityState) (c : Nat) (call : IdentityCall) : IdentityState :=
  { s with calls := Function.update s.calls c (some call) }

/-- What a process remembers between its calls. -/
def setProcess (s : IdentityState) (p : Nat) (process : IdentityProcess) : IdentityState :=
  { s with processes := Function.update s.processes p process }

/-- Return what the identity file holds, or go on. -/
def orElseFile (s : IdentityState) (phase : IdentityPhase) : IdentityPhase :=
  match s.readKeypairFromFile with
  | some kp => .returned kp
  | none => phase

/-- A call has read an empty keyring and found an empty roster: it hands its candidate, which
it generates once, to the write queue of its process. -/
def writeCandidate (s : IdentityState) (c : Nat) (call : IdentityCall) (attempt : Nat)
    (fresh : Ed25519Keypair) : IdentityState :=
  let candidate := call.creationCandidate.getD fresh
  let process := s.processes call.process
  (s.setCall c { call with phase := .awaitWrite attempt, creationCandidate := some candidate })
    |>.setProcess call.process
      { process with writeTail := process.writeTail ++ [⟨c, attempt, serialize candidate⟩] }

/-- The decision between a refusal and a file identity. -/
def forkPhase (s : IdentityState) (call : IdentityCall) (fresh : Ed25519Keypair) : IdentityPhase :=
  let process := s.processes call.process
  if !process.forceFile && 0 < s.roster then
    .threw (.pairedIdentityMissing s.roster call.keyringError)
  else if process.keyringExpectedAvailable && !process.forceFile then
    .threw (.keyringUnavailable call.keyringError)
  else .openFile fresh

/-- The next operation of a call. -/
def advance (s : IdentityState) (c : Nat) (call : IdentityCall) (fresh : Ed25519Keypair) :
    Option IdentityState :=
  match call.phase with
  | .readFile => some (s.setCall c { call with phase := s.orElseFile (.readKeyring 0) })
  | .readKeyring attempt =>
    if (s.processes call.process).binding = .loaded then
      match s.keyring with
      -- a stored key is returned: `keeps` says that no file contradicts it
      | some existing => some (s.setCall c { call with phase := .returned (deserialize existing) })
      | none =>
        if (s.processes call.process).forceFile then
          some (s.setCall c { call with
            phase := .rereadFile
            keyringError := "file-backed identity explicitly requested" })
        else some (s.setCall c { call with phase := .checkRoster attempt })
    else none
  | .checkRoster attempt =>
    if 0 < s.roster then
      some (s.setCall c { call with
        phase := .threw (.pairedIdentityMissing s.roster "keyring returned no identity") })
    else some (s.writeCandidate c call attempt fresh)
  | .rereadFile => some (s.setCall c { call with phase := s.orElseFile .fork })
  | .fork => some (s.setCall c { call with phase := s.forkPhase call fresh })
  | .openFile fresh =>
    -- The "wx" open succeeds for one process only.
    if s.identityFile = .absent then
      some { s.setCall c { call with phase := .writeFile fresh } with identityFile := .creating c }
    else some (s.setCall c { call with phase := .readWinner 0 })
  | .writeFile fresh =>
    some { s.setCall c { call with phase := .returned fresh } with
      identityFile := .written (serialize fresh) }
  | .readWinner attempt =>
    some (s.setCall c { call with
      phase := s.orElseFile
        (if attempt + 1 < winnerReadAttempts then .readWinner (attempt + 1)
          else .threw .fileExists) })
  | .awaitWrite _ | .returned _ | .threw _ => none

/-- The keyring operation that a call waits for is lost to it. A write stays in its queue. -/
def fault (s : IdentityState) (c : Nat) (call : IdentityCall) (error : String) :
    Option IdentityState :=
  match call.phase with
  | .readKeyring attempt | .awaitWrite attempt =>
    some (s.setCall c { call with phase := retry attempt, keyringError := error })
  | _ => none

/-- Tell the caller of a write how it ended, unless it has given up on that attempt. -/
def settleWrite (s : IdentityState) (write : PendingWrite) (error : Option String) :
    IdentityState :=
  match s.calls write.caller with
  | none => s
  | some call =>
    if call.phase = .awaitWrite write.attempt then
      match error, call.creationCandidate with
      | none, some candidate => s.setCall write.caller { call with phase := .returned candidate }
      | none, none => s
      | some error, _ =>
        s.setCall write.caller { call with phase := retry write.attempt, keyringError := error }
    else s

/-- The oldest write of a process completes. -/
def completeWrite (s : IdentityState) (p : Nat) (error : Option String) : Option IdentityState :=
  match (s.processes p).writeTail with
  | [] => none
  | write :: rest =>
    let popped := s.setProcess p { s.processes p with writeTail := rest }
    match error with
    | some error => some (popped.settleWrite write (some error))
    | none =>
      if (s.processes p).binding = .loaded then
        some ({ popped with keyring := some write.value }.settleWrite write none)
      else none

end IdentityState

/-- Any number of calls in any number of processes, on a machine without an identity. -/
def identityMachine : Machine IdentityState IdentityAction where
  Init s :=
    s.keyring = none ∧ s.identityFile = .absent ∧ s.roster = 0 ∧ (∀ c, s.calls c = none) ∧
      ∀ p, (s.processes p).binding = .unloaded ∧ (s.processes p).writeTail = []
  step
    | s, .call c p =>
      match s.calls c with
      | none => some (s.setCall c ⟨p, .readFile, none, "undefined"⟩)
      | some _ => none
    | s, .advance c fresh => (s.calls c).bind fun call => s.advance c call fresh
    | s, .fault c error => (s.calls c).bind fun call => s.fault c call error
    | s, .completeWrite p error => s.completeWrite p error
    | s, .importBinding p loads =>
      if (s.processes p).binding = .unloaded then
        some (s.setProcess p
          { s.processes p with binding := if loads then .loaded else .unavailable })
      else none
    | s, .addPeer => some { s with roster := s.roster + 1 }

namespace IdentityState

/-- The phase of a call, if it has begun. -/
def phaseOf (s : IdentityState) (c : Nat) : Option IdentityPhase := (s.calls c).map (·.phase)

/-- What a call that meets no fault takes for the identity. -/
def identity (s : IdentityState) : Option SerializedKeypair :=
  match s.identityFile with
  | .written content => some content
  | _ => s.keyring

/-- No identity file exists, or it holds this keypair. -/
def AgreesWithFile (s : IdentityState) (value : SerializedKeypair) : Prop :=
  s.identityFile = .absent ∨ s.identityFile = .written value

/-- The keyring is empty, or it holds this keypair. -/
def AgreesWithKeyring (s : IdentityState) (value : SerializedKeypair) : Prop :=
  s.keyring = none ∨ s.keyring = some value

/-- The identity file is complete. -/
def fileWritten (s : IdentityState) : Bool :=
  match s.identityFile with
  | .written _ => true
  | _ => false

instance (s : IdentityState) (value : SerializedKeypair) : Decidable (s.AgreesWithFile value) :=
  inferInstanceAs (Decidable (_ ∨ _))

instance (s : IdentityState) (value : SerializedKeypair) :
    Decidable (s.AgreesWithKeyring value) :=
  inferInstanceAs (Decidable (_ ∨ _))

end IdentityState

/-- The next operation of the call reads the keyring. -/
def IdentityPhase.readsKeyring : IdentityPhase → Bool
  | .readKeyring _ => true
  | _ => false

/-- The keypair with which a call is about to create the identity file. -/
def IdentityPhase.opens? : IdentityPhase → Option Ed25519Keypair
  | .openFile fresh => some fresh
  | _ => none

/-- A step that neither replaces the stored identity nor hands out another one: a keypair is
taken from the keyring only where no identity file contradicts it, it lands in the keyring and
in a new file only where the keyring does not contradict it. Once there is an identity file the
keyring is not consulted by new calls, and a write may land in it. -/
def KeepsIdentity (s : IdentityState) : IdentityAction → Prop
  | .advance c _ => ∀ call ∈ s.calls c,
      (call.phase.readsKeyring → ∀ existing ∈ s.keyring, s.AgreesWithFile existing) ∧
        ∀ fresh ∈ call.phase.opens?,
          s.identityFile = .absent → s.AgreesWithKeyring (serialize fresh)
  | .completeWrite p none => ∀ write ∈ (s.processes p).writeTail.head?,
      (s.fileWritten ∨ s.AgreesWithKeyring write.value) ∧
        (s.phaseOf write.caller = some (.awaitWrite write.attempt) →
          s.AgreesWithFile write.value)
  | _ => True

instance (s : IdentityState) : ∀ action, Decidable (KeepsIdentity s action)
  | .advance _ _ => inferInstanceAs (Decidable (∀ call ∈ _, _ ∧ _))
  | .completeWrite _ none => inferInstanceAs (Decidable (∀ write ∈ _, _ ∧ _))
  | .call _ _ | .fault _ _ | .completeWrite _ (some _) | .importBinding _ _ | .addPeer =>
    .isTrue trivial

/-! ## The invariant -/

/-- A call may return this keypair: it is the stored identity, and no file is being created. -/
structure Backed (s : IdentityState) (kp : Ed25519Keypair) : Prop where
  stored : s.identity = some (serialize kp)
  uncontested : ∀ creator, s.identityFile ≠ .creating creator

/-- What holds in every run: every call that has returned has returned the stored identity. -/
structure IdentityInvariant (s : IdentityState) : Prop where
  returned : ∀ c kp, s.phaseOf c = some (.returned kp) → s.identity = some (serialize kp)
  /-- The creator of the file is alone, and brings what has been returned if anything has. -/
  creator : ∀ c fresh, s.phaseOf c = some (.writeFile fresh) →
    s.identityFile = .creating c ∧ ∀ c' kp, s.phaseOf c' = some (.returned kp) → kp = fresh
  /-- A queued write carries the candidate of its caller. -/
  candidates : ∀ p, ∀ write ∈ (s.processes p).writeTail, ∃ call candidate,
    s.calls write.caller = some call ∧ call.creationCandidate = some candidate ∧
      write.value = serialize candidate
  keyring : ∀ value, s.keyring = some value → ∃ kp, value = serialize kp
  file : ∀ value, s.identityFile = .written value → ∃ kp, value = serialize kp

namespace IdentityState

variable {s : IdentityState} {c c' p : Nat} {call : IdentityCall}

/-- The phase of a call that was set. -/
@[simp]
theorem phaseOf_setCall_self : (s.setCall c call).phaseOf c = some call.phase := by
  simp [phaseOf, setCall]

/-- The phases of the other calls. -/
theorem phaseOf_setCall_ne (other : c' ≠ c) : (s.setCall c call).phaseOf c' = s.phaseOf c' := by
  simp [phaseOf, setCall, Function.update_of_ne other]

/-- Before a file is written, the identity is the one in the keyring. -/
theorem identity_of_unwritten (unwritten : s.fileWritten = false) : s.identity = s.keyring := by
  rw [fileWritten] at unwritten
  rw [identity]
  split at unwritten
  · cases unwritten
  · rfl

/-- Once a file is written, a late write to the keyring does not change the identity. -/
theorem identity_land_of_written (written : s.fileWritten = true)
    {value : Option SerializedKeypair} :
    identity { s with keyring := value } = s.identity := by
  rw [fileWritten] at written
  split at written
  · next file => simp only [identity, file]
  · cases written

/-- The phase of a call that is present. -/
theorem phaseOf_eq (present : s.calls c = some call) : s.phaseOf c = some call.phase := by
  rw [phaseOf, present]
  rfl

end IdentityState

variable {s s' : IdentityState} {c p : Nat} {call : IdentityCall} {kp fresh : Ed25519Keypair}

/-- An identity in the keyring is backed, if the file does not hold another. -/
theorem Backed.of_agrees (held : s.keyring = some (serialize kp))
    (agrees : s.AgreesWithFile (serialize kp)) : Backed s kp := by
  rcases agrees with absent | written
  · constructor
    · rw [IdentityState.identity, absent]
      exact held
    · intro creator
      rw [absent]
      exact IdentityFile.noConfusion
  · constructor
    · rw [IdentityState.identity, written]
    · intro creator
      rw [written]
      exact IdentityFile.noConfusion

namespace IdentityInvariant

/-- What a look at the identity file returns is backed. -/
theorem backed_of_file (inv : IdentityInvariant s) {phase : IdentityPhase}
    (found : s.orElseFile phase = .returned kp) (other : phase ≠ .returned kp) : Backed s kp := by
  cases file : s.identityFile with
  | absent =>
    rw [IdentityState.orElseFile, IdentityState.readKeypairFromFile, file] at found
    exact absurd found other
  | creating creator =>
    rw [IdentityState.orElseFile, IdentityState.readKeypairFromFile, file] at found
    exact absurd found other
  | written content =>
    obtain ⟨stored, rfl⟩ := inv.file content file
    rw [IdentityState.orElseFile, IdentityState.readKeypairFromFile, file] at found
    obtain rfl : stored = kp := by simpa using found
    constructor
    · rw [IdentityState.identity, file]
    · intro creator
      rw [file]
      exact IdentityFile.noConfusion

/-- Setting a call that keeps its candidate keeps the queued writes in order. -/
theorem candidates_setCall (inv : IdentityInvariant s)
    (keeps : ∀ old candidate, s.calls c = some old → old.creationCandidate = some candidate →
      call.creationCandidate = some candidate) (p : Nat) :
    ∀ write ∈ (s.processes p).writeTail, ∃ owner candidate,
      (s.setCall c call).calls write.caller = some owner ∧
        owner.creationCandidate = some candidate ∧ write.value = serialize candidate := by
  intro write mem
  obtain ⟨old, candidate, present, carries, value⟩ := inv.candidates p write mem
  by_cases same : write.caller = c
  · refine ⟨call, candidate, ?_, keeps old candidate (same ▸ present) carries, value⟩
    simp [IdentityState.setCall, same]
  · refine ⟨old, candidate, ?_, carries, value⟩
    simpa [IdentityState.setCall, Function.update_of_ne same] using present

/-- A call goes on to a phase that returns only what is backed and writes no file. -/
theorem setCall (inv : IdentityInvariant s)
    (keeps : ∀ old candidate, s.calls c = some old → old.creationCandidate = some candidate →
      call.creationCandidate = some candidate)
    (quiet : ∀ fresh, call.phase ≠ .writeFile fresh)
    (backed : ∀ kp, call.phase = .returned kp → Backed s kp) :
    IdentityInvariant (s.setCall c call) where
  returned c' kp is := by
    by_cases same : c' = c
    · subst same
      apply (backed kp _).stored
      simpa using is
    · rw [IdentityState.phaseOf_setCall_ne same] at is
      exact inv.returned c' kp is
  creator c' fresh is := by
    have other : c' ≠ c := by
      rintro rfl
      rw [IdentityState.phaseOf_setCall_self] at is
      exact quiet fresh (Option.some.inj is)
    rw [IdentityState.phaseOf_setCall_ne other] at is
    obtain ⟨creating, agrees⟩ := inv.creator c' fresh is
    refine ⟨creating, fun c'' kp gives => ?_⟩
    by_cases same : c'' = c
    · subst same
      rw [IdentityState.phaseOf_setCall_self] at gives
      exact absurd creating ((backed kp (Option.some.inj gives)).uncontested c')
    · rw [IdentityState.phaseOf_setCall_ne same] at gives
      exact agrees c'' kp gives
  candidates := inv.candidates_setCall keeps
  keyring := inv.keyring
  file := inv.file

/-- The candidate of a call survives where only its phase and its last error change. -/
theorem goto (inv : IdentityInvariant s) (present : s.calls c = some call)
    {phase : IdentityPhase} {error : String} (quiet : ∀ fresh, phase ≠ .writeFile fresh)
    (backed : ∀ kp, phase = .returned kp → Backed s kp) :
    IdentityInvariant (s.setCall c { call with phase := phase, keyringError := error }) := by
  apply inv.setCall _ quiet backed
  intro old candidate was carries
  rw [present] at was
  exact Option.some.inj was ▸ carries

/-- The processes may change as long as what they have queued carries candidates. -/
theorem setProcess (inv : IdentityInvariant s) {process : IdentityProcess}
    (candidates : ∀ write ∈ process.writeTail, ∃ call candidate,
      s.calls write.caller = some call ∧ call.creationCandidate = some candidate ∧
        write.value = serialize candidate) : IdentityInvariant (s.setProcess p process) :=
  { inv with
    candidates p' write mem := by
      by_cases same : p' = p
      · subst same
        rw [IdentityState.setProcess] at mem
        simp only [Function.update_self] at mem
        exact candidates write mem
      · simp only [IdentityState.setProcess, Function.update_of_ne same] at mem
        exact inv.candidates p' write mem }

/-! ## Steps -/

/-- A retry does not write a file. -/
theorem retry_ne_writeFile (attempt : Nat) (fresh : Ed25519Keypair) :
    retry attempt ≠ .writeFile fresh := by
  rw [retry]
  split <;> simp

/-- A retry does not return. -/
theorem retry_ne_returned (attempt : Nat) (kp : Ed25519Keypair) :
    retry attempt ≠ .returned kp := by
  rw [retry]
  split <;> simp

theorem writeCandidate (inv : IdentityInvariant s) (present : s.calls c = some call)
    (attempt : Nat) : IdentityInvariant (s.writeCandidate c call attempt fresh) := by
  -- A candidate that the call already has is the one it writes.
  have moved : IdentityInvariant (s.setCall c { call with
      phase := .awaitWrite attempt
      creationCandidate := some (call.creationCandidate.getD fresh) }) := by
    apply inv.setCall
    · intro old candidate was carries
      rw [present] at was
      cases was
      simp [carries]
    · simp
    · simp
  apply moved.setProcess
  intro write mem
  rcases List.mem_append.mp mem with before | new
  · exact moved.candidates call.process write before
  · rw [List.mem_singleton.mp new]
    exact ⟨_, _, Function.update_self _ _ _, rfl, rfl⟩

/-- Opening the identity file keeps the invariant, if the keyring agrees. -/
theorem openFile (inv : IdentityInvariant s) (present : s.calls c = some call)
    (absent : s.identityFile = .absent) (agrees : s.AgreesWithKeyring (serialize fresh)) :
    IdentityInvariant { s.setCall c { call with phase := .writeFile fresh } with
      identityFile := .creating c } := by
  have moved : ∀ c' phase, (s.setCall c { call with phase := .writeFile fresh }).phaseOf c' =
      some phase → phase ≠ .writeFile fresh → s.phaseOf c' = some phase := by
    intro c' phase is other
    by_cases same : c' = c
    · subst same
      rw [IdentityState.phaseOf_setCall_self] at is
      exact absurd (Option.some.inj is).symm other
    · rwa [IdentityState.phaseOf_setCall_ne same] at is
  have stored : ∀ c' kp, s.phaseOf c' = some (.returned kp) →
      s.keyring = some (serialize kp) := by
    intro c' kp gives
    have held := inv.returned c' kp gives
    rwa [IdentityState.identity, absent] at held
  constructor
  · intro c' kp gives
    exact stored c' kp (moved c' _ gives (by simp))
  · intro c' writes is
    by_cases same : c' = c
    · subst same
      have own := IdentityState.phaseOf_setCall_self.symm.trans is
      obtain rfl : fresh = writes := by simpa using own
      refine ⟨rfl, fun c'' kp gives => ?_⟩
      have held := stored c'' kp (moved c'' _ gives (by simp))
      rcases agrees with empty | holds
      · rw [empty] at held
        exact absurd held (by simp)
      · rw [holds] at held
        exact (serialize_injective (Option.some.inj held)).symm
    · -- Nobody was writing the file before, since it did not exist.
      have before : s.phaseOf c' = some (.writeFile writes) :=
        (IdentityState.phaseOf_setCall_ne same).symm.trans is
      have creating := (inv.creator c' writes before).1
      rw [absent] at creating
      exact IdentityFile.noConfusion creating
  · apply inv.candidates_setCall
    intro old candidate was carries
    rw [present] at was
    exact Option.some.inj was ▸ carries
  · exact inv.keyring
  · intro value written
    exact IdentityFile.noConfusion written

/-- Writing the identity file keeps the invariant. -/
theorem writeFile (inv : IdentityInvariant s) (present : s.calls c = some call)
    (writes : call.phase = .writeFile fresh) :
    IdentityInvariant { s.setCall c { call with phase := .returned fresh } with
      identityFile := .written (serialize fresh) } := by
  obtain ⟨creating, agrees⟩ :=
    inv.creator c fresh ((IdentityState.phaseOf_eq present).trans (congrArg some writes))
  constructor
  · intro c' kp gives
    by_cases same : c' = c
    · subst same
      have own := IdentityState.phaseOf_setCall_self.symm.trans gives
      obtain rfl : fresh = kp := by simpa using own
      rfl
    · have before : s.phaseOf c' = some (.returned kp) :=
        (IdentityState.phaseOf_setCall_ne same).symm.trans gives
      rw [agrees c' kp before]
      rfl
  · intro c' other is
    by_cases same : c' = c
    · subst same
      have own := IdentityState.phaseOf_setCall_self.symm.trans is
      simp at own
    · have before : s.phaseOf c' = some (.writeFile other) :=
        (IdentityState.phaseOf_setCall_ne same).symm.trans is
      have created := (inv.creator c' other before).1
      rw [creating] at created
      exact absurd (IdentityFile.creating.inj created).symm same
  · apply inv.candidates_setCall
    intro old candidate was carries
    rw [present] at was
    exact Option.some.inj was ▸ carries
  · exact inv.keyring
  · intro value written
    exact ⟨fresh, (IdentityFile.written.inj written).symm⟩

theorem advance (inv : IdentityInvariant s) (present : s.calls c = some call)
    (keeps : KeepsIdentity s (.advance c fresh)) (taken : s.advance c call fresh = some s') :
    IdentityInvariant s' := by
  obtain ⟨reads, opens⟩ := keeps call present
  -- one case for each phase of the call; only those that can return have to show what backs the key
  cases phase : call.phase with
  | readFile =>
    obtain rfl : _ = s' := by simpa [IdentityState.advance, phase] using taken
    apply inv.goto present
    · intro fresh
      cases file : s.readKeypairFromFile <;> simp [IdentityState.orElseFile, file]
    · intro kp found
      exact inv.backed_of_file found (by simp)
  | readKeyring attempt =>
    rw [phase] at reads
    simp only [IdentityState.advance, phase] at taken
    obtain ⟨_, taken⟩ := Option.ite_none_right_eq_some.mp taken
    cases held : s.keyring with
    | some existing =>
      obtain ⟨stored, rfl⟩ := inv.keyring existing held
      rw [held] at taken
      cases taken
      apply inv.goto present (by simp)
      intro kp found
      obtain rfl : stored = kp := by simpa using found
      exact Backed.of_agrees held (reads rfl _ held)
    | none =>
      rw [held] at taken
      dsimp only at taken
      split at taken
      · cases taken
        exact inv.goto present (by simp) (by simp)
      · cases taken
        exact inv.goto present (by simp) (by simp)
  | checkRoster attempt =>
    simp only [IdentityState.advance, phase] at taken
    split at taken
    · cases taken
      exact inv.goto present (by simp) (by simp)
    · cases taken
      exact inv.writeCandidate present attempt
  | awaitWrite attempt => simp [IdentityState.advance, phase] at taken
  | rereadFile =>
    obtain rfl : _ = s' := by simpa [IdentityState.advance, phase] using taken
    apply inv.goto present
    · intro fresh
      cases file : s.readKeypairFromFile <;> simp [IdentityState.orElseFile, file]
    · intro kp found
      exact inv.backed_of_file found (by simp)
  | fork =>
    obtain rfl : _ = s' := by simpa [IdentityState.advance, phase] using taken
    apply inv.goto present
    · intro fresh
      rw [IdentityState.forkPhase]
      split
      · simp
      · split <;> simp
    · intro kp found
      rw [IdentityState.forkPhase] at found
      split at found
      · cases found
      · split at found <;> cases found
  | openFile minted =>
    simp only [IdentityState.advance, phase] at taken
    split at taken
    · next absent =>
      cases taken
      -- the file is created here, for the candidate that the keyring agrees with
      exact inv.openFile present absent (opens minted (by rw [phase]; rfl) absent)
    · cases taken
      exact inv.goto present (by simp) (by simp)
  | writeFile minted =>
    obtain rfl : _ = s' := by simpa [IdentityState.advance, phase] using taken
    exact inv.writeFile present phase
  | readWinner attempt =>
    obtain rfl : _ = s' := by simpa [IdentityState.advance, phase] using taken
    apply inv.goto present
    · intro fresh
      cases file : s.readKeypairFromFile with
      | some kp => simp [IdentityState.orElseFile, file]
      | none =>
        rw [IdentityState.orElseFile, file]
        dsimp only
        split <;> simp
    · intro kp found
      apply inv.backed_of_file found
      split <;> simp
  | returned kp => simp [IdentityState.advance, phase] at taken
  | threw error => simp [IdentityState.advance, phase] at taken

theorem fault (inv : IdentityInvariant s) (present : s.calls c = some call) {error : String}
    (taken : s.fault c call error = some s') : IdentityInvariant s' := by
  rw [IdentityState.fault] at taken
  split at taken
  · cases taken
    exact inv.goto present (retry_ne_writeFile _)
      fun kp found => absurd found (retry_ne_returned _ kp)
  · cases taken
    exact inv.goto present (retry_ne_writeFile _)
      fun kp found => absurd found (retry_ne_returned _ kp)
  · cases taken

/-- A write that lands keeps what has been returned: the keyring held the same keypair, or new
calls take theirs from the file. -/
theorem land (inv : IdentityInvariant s)
    (agrees : s.fileWritten ∨ s.AgreesWithKeyring (serialize kp)) :
    IdentityInvariant { s with keyring := some (serialize kp) } :=
  { inv with
    returned c kp' gives := by
      have held := inv.returned c kp' gives
      by_cases written : s.fileWritten = true
      · rwa [IdentityState.identity_land_of_written written]
      · have unwritten := Bool.eq_false_of_not_eq_true written
        rw [IdentityState.identity_of_unwritten unwritten] at held
        have now : IdentityState.identity { s with keyring := some (serialize kp) } =
            some (serialize kp) := IdentityState.identity_of_unwritten unwritten
        rcases agrees.resolve_left written with empty | same
        · rw [empty] at held
          cases held
        · exact now.trans (same.symm.trans held)
    keyring value is := ⟨kp, (Option.some.inj is).symm⟩ }

/-- The caller of a completed write returns its candidate if that is backed. -/
theorem settleWrite (inv : IdentityInvariant s) {write : PendingWrite} {error : Option String}
    (backed : error = none → s.phaseOf write.caller = some (.awaitWrite write.attempt) →
      ∀ candidate, write.value = serialize candidate → Backed s candidate)
    (carries : ∃ call candidate, s.calls write.caller = some call ∧
      call.creationCandidate = some candidate ∧ write.value = serialize candidate) :
    IdentityInvariant (s.settleWrite write error) := by
  obtain ⟨call, candidate, present, carries, value⟩ := carries
  rw [IdentityState.settleWrite, present]
  dsimp only
  split
  · next waits =>
    cases error with
    | none =>
      rw [carries]
      dsimp only
      apply inv.setCall _ (by simp)
      · intro kp found
        obtain rfl : candidate = kp := by simpa using found
        apply backed rfl _ _ value
        rw [IdentityState.phaseOf_eq present, waits]
      · intro old other was now
        rw [present] at was
        cases was
        exact carries.symm.trans now
    | some error =>
      exact inv.goto present (retry_ne_writeFile _)
        fun kp found => absurd found (retry_ne_returned _ kp)
  · exact inv

theorem completeWrite (inv : IdentityInvariant s) {error : Option String}
    (keeps : KeepsIdentity s (.completeWrite p error))
    (taken : s.completeWrite p error = some s') : IdentityInvariant s' := by
  cases tail : (s.processes p).writeTail with
  | nil => simp [IdentityState.completeWrite, tail] at taken
  | cons write rest =>
    obtain ⟨call, candidate, present, carries, value⟩ :=
      inv.candidates p write (tail ▸ List.mem_cons_self)
    have popped : IdentityInvariant (s.setProcess p { s.processes p with writeTail := rest }) := by
      apply inv.setProcess
      intro later mem
      exact inv.candidates p later (tail ▸ List.mem_cons_of_mem write mem)
    simp only [IdentityState.completeWrite, tail] at taken
    cases error with
    | some error =>
      cases taken
      apply popped.settleWrite
      · exact fun absurdity => nomatch absurdity
      · exact ⟨call, candidate, present, carries, value⟩
    | none =>
      obtain ⟨agrees, settles⟩ := keeps write (by rw [tail]; rfl)
      dsimp only at taken
      obtain ⟨_, rfl⟩ := Machine.of_guard taken
      rw [value] at agrees settles ⊢
      apply IdentityInvariant.settleWrite (popped.land agrees)
      · intro _ waits other same
        obtain rfl := serialize_injective (value.symm.trans same)
        exact Backed.of_agrees rfl (settles waits)
      · exact ⟨call, candidate, present, carries, value⟩

end IdentityInvariant

/-- The step lemma: every action that keeps the identity keeps the invariant. -/
theorem identityInvariant_step {action : IdentityAction} (inv : IdentityInvariant s)
    (keeps : KeepsIdentity s action) (taken : identityMachine.step s action = some s') :
    IdentityInvariant s' := by
  cases action with
  | call c p =>
    simp only [identityMachine] at taken
    split at taken
    · next free =>
      cases taken
      apply inv.setCall _ (by simp) (by simp)
      intro old candidate was
      rw [free] at was
      cases was
    · cases taken
  | advance c fresh =>
    obtain ⟨call, present, advanced⟩ := Option.bind_eq_some_iff.mp taken
    exact inv.advance present keeps advanced
  | fault c error =>
    obtain ⟨call, present, failed⟩ := Option.bind_eq_some_iff.mp taken
    exact inv.fault present failed
  | completeWrite p error => exact inv.completeWrite keeps taken
  | importBinding p loads =>
    simp only [identityMachine] at taken
    obtain ⟨_, rfl⟩ := Machine.of_guard taken
    exact inv.setProcess (inv.candidates p)
  | addPeer =>
    cases taken
    exact { inv with }

/-- The invariant holds at the start. -/
theorem identityInvariant_initial (initial : identityMachine.Init s) : IdentityInvariant s := by
  obtain ⟨empty, absent, -, idle, fresh⟩ := initial
  constructor
  · intro c kp gives
    rw [IdentityState.phaseOf, idle c] at gives
    cases gives
  · intro c minted is
    rw [IdentityState.phaseOf, idle c] at is
    cases is
  · intro p write mem
    rw [(fresh p).2] at mem
    cases mem
  · intro value held
    rw [empty] at held
    cases held
  · intro value written
    rw [absent] at written
    cases written

/-- The invariant holds in every run whose late writes keep the identity. -/
theorem identityInvariant_reachable (reached : identityMachine.ReachableUnder KeepsIdentity s) :
    IdentityInvariant s :=
  reached.invariant (fun _ initial => identityInvariant_initial initial)
    fun _ _ _ inv keeps taken => identityInvariant_step inv keeps taken

/-! ## One identity -/

/-- The call returns that keypair, from the file or with its next read of the keyring. -/
def ReturnsUnlessFault (s : IdentityState) (c : Nat) (kp : Ed25519Keypair) : Prop :=
  s.phaseOf c = some (.returned kp) ∨
    s.phaseOf c = some (.readKeyring 0) ∧ ∀ fresh s',
      identityMachine.step s (.advance c fresh) = some s' → s'.phaseOf c = some (.returned kp)

/-- A call that has looked at the file returns the identity, unless the keyring fails it. -/
theorem IdentityState.returnsUnlessFault (identity : s.identity = some (serialize kp))
    (present : s.calls c = some call)
    (phase : call.phase = s.orElseFile (.readKeyring 0)) : ReturnsUnlessFault s c kp := by
  cases file : s.identityFile with
  | written content =>
    left
    rw [IdentityState.identity, file] at identity
    obtain rfl : content = serialize kp := by simpa using identity
    rw [phaseOf_eq present, phase, orElseFile, readKeypairFromFile, file]
    simp
  | absent | creating =>
    right
    rw [IdentityState.identity, file] at identity
    have reads : call.phase = .readKeyring 0 := by
      rw [phase, orElseFile, readKeypairFromFile, file]
    refine ⟨by rw [phaseOf_eq present, reads], fun fresh s' taken => ?_⟩
    obtain ⟨_, same, advanced⟩ := Option.bind_eq_some_iff.mp taken
    obtain rfl := Option.some.inj (present.symm.trans same)
    simp only [IdentityState.advance, reads] at advanced
    split at advanced
    · rw [show s.keyring = some (serialize kp) from identity] at advanced
      cases advanced
      simp
    · cases advanced

/-- As long as no step replaces the stored identity or hands out another one, all calls that
return return the same keypair, and so does a later call that meets no fault. -/
theorem one_identity_of_kept (reached : identityMachine.ReachableUnder KeepsIdentity s) :
    (∀ c c' kp kp', s.phaseOf c = some (.returned kp) → s.phaseOf c' = some (.returned kp') →
      kp = kp') ∧
    ∀ c kp, s.phaseOf c = some (.returned kp) → ∀ c' p fresh s',
      identityMachine.exec s [.call c' p, .advance c' fresh] = some s' →
        ReturnsUnlessFault s' c' kp := by
  have inv := identityInvariant_reachable reached
  constructor
  · intro c c' kp kp' gives gives'
    have same := (inv.returned c kp gives).symm.trans (inv.returned c' kp' gives')
    exact serialize_injective (Option.some.inj same)
  · intro c kp gives c' p fresh s' executed
    simp only [Machine.exec, Option.bind_eq_some_iff] at executed
    obtain ⟨called, taken, looked, advanced, same⟩ := executed
    cases same
    simp only [identityMachine] at taken advanced
    split at taken
    · cases taken
      obtain ⟨call, present, moved⟩ := Option.bind_eq_some_iff.mp advanced
      obtain rfl : ⟨p, .readFile, none, "undefined"⟩ = call := by
        simpa [IdentityState.setCall] using present
      cases moved
      refine IdentityState.returnsUnlessFault ?_ (Function.update_self _ _ _) rfl
      exact inv.returned c kp gives
    · cases taken

/-- A machine without an identity, whose processes expect a keyring. -/
def unprovisioned : IdentityState where
  keyring := none
  identityFile := .absent
  roster := 0
  processes _ := ⟨.darwin, false, .unloaded, []⟩
  calls _ := none

/-- A machine that was never provisioned is a start. -/
theorem init_unprovisioned : identityMachine.Init unprovisioned :=
  ⟨rfl, rfl, rfl, fun _ => rfl, fun _ => ⟨rfl, rfl⟩⟩

/-- A keypair. -/
def laptopKeypair : Ed25519Keypair where
  secretKey := [
    0x9d, 0x61, 0xb1, 0x9d, 0xef, 0xfd, 0x5a, 0x60, 0xba, 0x84, 0x4a, 0xf4, 0x92, 0xec, 0x2c, 0xc4,
    0x44, 0x49, 0xc5, 0x69, 0x7b, 0x32, 0x69, 0x19, 0x70, 0x3b, 0xac, 0x03, 0x1c, 0xae, 0x7f, 0x60]
  publicKey := [
    0xd7, 0x5a, 0x98, 0x01, 0x82, 0xb1, 0x0a, 0xb7, 0xd5, 0x4b, 0xfe, 0xd3, 0xc9, 0x64, 0x07, 0x3a,
    0x0e, 0xe1, 0x72, 0xf3, 0xda, 0xa6, 0x23, 0x25, 0xaf, 0x02, 0x1a, 0x68, 0xf7, 0x07, 0x51, 0x1a]

/-- Another keypair. -/
def rivalKeypair : Ed25519Keypair where
  secretKey := [
    0x4c, 0xcd, 0x08, 0x9b, 0x28, 0xff, 0x96, 0xda, 0x9d, 0xb6, 0xc3, 0x46, 0xec, 0x11, 0x4e, 0x0f,
    0x5b, 0x8a, 0x31, 0x9f, 0x35, 0xab, 0xa6, 0x24, 0xda, 0x8c, 0xf6, 0xed, 0x4f, 0xb8, 0xa6, 0xfb]
  publicKey := [
    0x3d, 0x40, 0x17, 0xc3, 0xe8, 0x43, 0x89, 0x5a, 0x92, 0xb7, 0x0a, 0xa7, 0x4d, 0x1b, 0x7e, 0xbc,
    0x9c, 0x98, 0x2c, 0xcf, 0x2e, 0xc4, 0x96, 0x8c, 0xc0, 0xcd, 0x55, 0xf1, 0x2a, 0xf4, 0x66, 0x0c]

/-- A first call creates the identity, whose write times out and lands before the retry. A
later call of another process is given it too. -/
def lateWrite : List IdentityAction :=
  [.call 0 0, .importBinding 0 true, .advance 0 laptopKeypair, .advance 0 laptopKeypair,
    .advance 0 laptopKeypair, .fault 0 "keyring write(dev.outpostpi.pi) timed out after 3000ms",
    .completeWrite 0 none, .advance 0 rivalKeypair, .call 1 1, .importBinding 1 true,
    .advance 1 rivalKeypair, .advance 1 rivalKeypair]

theorem one_identity_of_kept_late_write :
    ∃ s, identityMachine.ReachableUnder KeepsIdentity s ∧
      s.phaseOf 0 = some (.returned laptopKeypair) ∧
      s.phaseOf 1 = some (.returned laptopKeypair) ∧
      ∀ kp, s.phaseOf 1 = some (.returned kp) → laptopKeypair = kp := by
  have meets : identityMachine.Meets KeepsIdentity unprovisioned lateWrite := by decide +kernel
  have ran : (identityMachine.exec unprovisioned lateWrite).any (fun s =>
      decide (s.phaseOf 0 = some (.returned laptopKeypair)) &&
        decide (s.phaseOf 1 = some (.returned laptopKeypair))) = true := by decide +kernel
  obtain ⟨s, executed, facts⟩ := (Option.any_eq_true _ _).mp ran
  simp only [Bool.and_eq_true, decide_eq_true_eq] at facts
  have reached : identityMachine.ReachableUnder KeepsIdentity s :=
    ⟨unprovisioned, init_unprovisioned, Machine.runsTo_of_exec meets executed⟩
  exact ⟨s, reached, facts.1, facts.2,
    fun kp gives => (one_identity_of_kept reached).1 0 1 _ kp facts.1 gives⟩

/-- Two first calls of one process both find the keyring empty before either has written. -/
def racingCalls : List IdentityAction :=
  [.importBinding 0 true, .call 0 0, .call 1 0, .advance 0 laptopKeypair,
    .advance 1 rivalKeypair, .advance 0 laptopKeypair, .advance 1 rivalKeypair,
    .advance 0 laptopKeypair, .advance 1 rivalKeypair, .completeWrite 0 none,
    .completeWrite 0 none]

theorem exists_two_identities :
    ∃ s, identityMachine.Reachable s ∧ ∃ c c' kp kp', s.phaseOf c = some (.returned kp) ∧
      s.phaseOf c' = some (.returned kp') ∧ kp ≠ kp' := by
  have ran : (identityMachine.exec unprovisioned racingCalls).any (fun s =>
      decide (s.phaseOf 0 = some (.returned laptopKeypair)) &&
        decide (s.phaseOf 1 = some (.returned rivalKeypair))) = true := by decide +kernel
  obtain ⟨s, executed, facts⟩ := (Option.any_eq_true _ _).mp ran
  simp only [Bool.and_eq_true, decide_eq_true_eq] at facts
  exact ⟨s, Machine.reachable_of_exec init_unprovisioned executed, 0, 1, laptopKeypair,
    rivalKeypair, facts.1, facts.2, by decide⟩

end OutpostPi.Pi
