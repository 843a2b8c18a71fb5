import OutpostPi.App.PairingStorage
import OutpostPi.Lib.Machine

/-!
# Applying a mesh blob beside local pairings

`_replaceLocalCacheWith` lists the peers, and then writes metadata of members and erases peers
that are not listed, one awaited operation of the storage queue after the other. Before each it
checks that no local mutation has been committed since it began. A mutation that is still in the
queue has not been committed, so it does not stop the apply, and the operation of the apply then
runs after it.

In runs where no such operation contradicts the last mutation of its peer in the queue (`Fenced`),
what was paired or deleted since the apply began stays so (`apply_keeps_local_changes`).

The two spellings of a peer key are parameters.
-/

set_option autoImplicit false

namespace OutpostPi.App.MeshApply

open OutpostPi.Lib

/-! ## Storage -/

/-- A peer as the app keeps it, with its channel if it has one. -/
structure PeerRecord where
  remoteEpk : String
  sessionName : String
  relayUrl : String
  pairedAt : String
  nickname : Option String
  roomId : Option String
  harness : Option String
  channel : Option OwnerChannelState
  deriving DecidableEq

/-- The stored peers by their key, with the channel of each. -/
abbrev Roster := Map String PeerRecord

/-- Write the record of a peer over what is stored of it, as the flags say. -/
def writePeer (roster : Roster) (record : PeerRecord) (flags : WriteFlags) : Roster :=
  let entry := roster.lookup record.remoteEpk
  if entry.isNone && !flags.allowCreate then roster
  else
    let current := entry.bind PeerRecord.channel
    let written := channelToWrite flags entry.isSome current record.channel
    let cleared := (entry.isNone && flags.metadataOnly) ||
      (flags.replaceChannelKeys && written.isNone)
    roster.insert record.remoteEpk
      { record with channel := if cleared then none else written.or current }

/-- What the user does with a peer. -/
inductive Mutation
  | savePairedPeer (record : PeerRecord)
  | deletePeer (remoteEpk : String)
  deriving DecidableEq

/-- What an apply does with a peer, without another publication. -/
inductive MeshWrite
  | saveMeshPeerMetadata (record : PeerRecord)
  | deletePeerSilent (remoteEpk : String)
  deriving DecidableEq

/-- What is queued for the secure store. -/
inductive StorageOp
  | mutation (mutation : Mutation)
  | mesh (write : MeshWrite)
  deriving DecidableEq

/-- The operation is a change of the user. -/
def StorageOp.isMutation : StorageOp → Bool
  | .mutation _ => true
  | .mesh _ => false

/-- The peer that a change of the user is about. -/
def Mutation.remoteEpk : Mutation → String
  | .savePairedPeer record => record.remoteEpk
  | .deletePeer remoteEpk => remoteEpk

/-- The peer that a write of the mesh is about. -/
def MeshWrite.remoteEpk : MeshWrite → String
  | .saveMeshPeerMetadata record => record.remoteEpk
  | .deletePeerSilent remoteEpk => remoteEpk

/-- What a change of the user does to the roster. -/
def Mutation.run (roster : Roster) : Mutation → Roster
  | .savePairedPeer record =>
    writePeer roster record { allowCreate := true, replaceChannelKeys := true }
  | .deletePeer remoteEpk => roster.erase remoteEpk

/-- What a write of the mesh does to the roster. -/
def MeshWrite.run (roster : Roster) : MeshWrite → Roster
  | .saveMeshPeerMetadata record =>
    writePeer roster record { allowCreate := true, metadataOnly := true }
  | .deletePeerSilent remoteEpk => roster.erase remoteEpk

/-! ## The apply -/

/-- A member that the blob lists. -/
structure MeshMember where
  remoteEpk : String
  relayUrl : String
  pairedAt : String
  nickname : Option String
  deriving DecidableEq

/-- The fields that the mesh controls. -/
def peerEqualsForMesh (a b : PeerRecord) : Bool :=
  a.remoteEpk == b.remoteEpk && a.relayUrl == b.relayUrl && a.pairedAt == b.pairedAt &&
    a.nickname == b.nickname

section Decisions

variable (toStandardB64 toAppEpk : String → String)

/-- Of two records of one peer, the one that is kept and the one that is not. -/
def preferSurvivor (a b : PeerRecord) : PeerRecord × PeerRecord :=
  if a.channel.isSome != b.channel.isSome then if a.channel.isSome then (a, b) else (b, a)
  else
    let aCanonical := a.remoteEpk == toAppEpk a.remoteEpk
    let bCanonical := b.remoteEpk == toAppEpk b.remoteEpk
    if aCanonical != bCanonical then if aCanonical then (a, b) else (b, a) else (a, b)

/-- The surviving record of each peer, and the keys of the records that are shadowed. -/
def survivorsOf (peers : List PeerRecord) : Map String PeerRecord × List String :=
  peers.foldl
    (fun (survivors, shadowed) peer =>
      let key := toStandardB64 peer.remoteEpk
      match survivors.lookup key with
      | none => (survivors.insert key peer, shadowed)
      | some previous =>
        let (keepRecord, dropRecord) := preferSurvivor toAppEpk previous peer
        (survivors.insert key keepRecord, dropRecord.remoteEpk :: shadowed))
    (∅, [])

/-- The record of a member, from the one that survived. -/
def recordOf (previous : Option PeerRecord) (member : MeshMember) : PeerRecord where
  remoteEpk := (previous.map PeerRecord.remoteEpk).getD (toAppEpk member.remoteEpk)
  sessionName := (previous.map PeerRecord.sessionName).getD (member.nickname.getD "outpost_pi")
  relayUrl := member.relayUrl
  pairedAt := member.pairedAt
  nickname := member.nickname
  roomId := previous.bind PeerRecord.roomId
  harness := previous.bind PeerRecord.harness
  channel := previous.bind PeerRecord.channel

/-- The write of a member, if it needs one. -/
def memberWrite (peers : List PeerRecord) (member : MeshMember) : Option MeshWrite :=
  let previous := (survivorsOf toStandardB64 toAppEpk peers).1.lookup
    (toStandardB64 member.remoteEpk)
  let record := recordOf toAppEpk previous member
  if previous.any fun stored => peerEqualsForMesh stored record then none
  else some (.saveMeshPeerMetadata record)

/-- The removal of a stored peer, if it is due: of a shadowed record, or of one that the blob does
not list. A record with a channel stays. -/
def peerRemoval (peers : List PeerRecord) (members : List MeshMember) (peer : PeerRecord) :
    Option MeshWrite :=
  let keep := members.map fun member => toStandardB64 member.remoteEpk
  if peer.remoteEpk ∈ (survivorsOf toStandardB64 toAppEpk peers).2 ∨
      toStandardB64 peer.remoteEpk ∉ keep then
    if peer.channel.isNone then some (.deletePeerSilent peer.remoteEpk) else none
  else none

end Decisions

/-- Where an apply is. -/
inductive ApplyStage
  | listing
  | listed (peers : List PeerRecord)
  | members (peers : List PeerRecord) (rest : List MeshMember)
  | savingMember (peers : List PeerRecord) (rest : List MeshMember)
  | records (peers rest : List PeerRecord)
  | erasing (peers rest : List PeerRecord)
  | deletingRooms (peers rest : List PeerRecord)
  | finished (applied : Bool)
  deriving DecidableEq

/-- A call that applies the members of a blob. -/
structure Apply where
  blobMembers : List MeshMember
  mutationRevision : Nat
  allowPendingMutation : Bool
  stage : ApplyStage
  deriving DecidableEq

/-- The storage with its queue, what decides whether an apply is current, and the apply. The last
field is history: the mutations that were committed since the apply began. -/
structure World where
  roster : Roster
  queue : List StorageOp
  mutationRevision : Nat
  mutationPending : Bool
  ownerCurrent : Bool
  apply : Apply
  committed : List Mutation

namespace World

/-- The call may go on: nothing has changed since it began, and the Owner is still the current
one. -/
def Current (w : World) : Prop :=
  w.apply.mutationRevision = w.mutationRevision ∧
    (w.apply.allowPendingMutation = true ∨ w.mutationPending = false) ∧ w.ownerCurrent = true

instance (w : World) : Decidable w.Current := inferInstanceAs (Decidable (_ ∧ _ ∧ _))

/-- The call goes on to another stage. -/
def goTo (w : World) (stage : ApplyStage) : World :=
  { w with apply := { w.apply with stage := stage } }

/-- Go on if the apply is still current. -/
def goOn (w : World) (stage : ApplyStage) : World :=
  w.goTo (if w.Current then stage else .finished false)

/-- Put a write into the queue, and wait for it. -/
def await (w : World) (write : MeshWrite) (stage : ApplyStage) : World :=
  { w with
    queue := w.queue ++ [.mesh write]
    apply := { w.apply with stage := stage } }

/-- No write of the apply is in the queue. -/
def isWritten (w : World) : Bool := w.queue.all StorageOp.isMutation

section Apply

variable (toStandardB64 toAppEpk : String → String)

/-- The write that the apply is about to put into the queue. -/
def nextWrite (w : World) : Option MeshWrite :=
  match w.apply.stage with
  | .members peers (member :: _) => memberWrite toStandardB64 toAppEpk peers member
  | .records peers (peer :: _) =>
    peerRemoval toStandardB64 toAppEpk peers w.apply.blobMembers peer
  | _ => none

/-- The call goes on after what it awaits. -/
def resumeApply (w : World) : Option World :=
  match w.apply.stage with
  | .listing => some (w.goTo (.listed (w.roster.entries.map Sigma.snd)))
  | .listed peers => some (w.goOn (.members peers w.apply.blobMembers))
  | .members peers [] => some (w.goTo (.records peers peers))
  | .members peers (_ :: rest) =>
    if w.Current then
      match w.nextWrite toStandardB64 toAppEpk with
      | some write => some (w.await write (.savingMember peers rest))
      | none => some (w.goTo (.members peers rest))
    else some (w.goTo (.finished false))
  | .savingMember peers rest =>
    if w.isWritten then some (w.goOn (.members peers rest)) else none
  | .records _ [] => some (w.goOn (.finished true))
  | .records peers (_ :: rest) =>
    if w.Current then
      match w.nextWrite toStandardB64 toAppEpk with
      | some write => some (w.await write (.erasing peers rest))
      | none => some (w.goTo (.records peers rest))
    else some (w.goTo (.finished false))
  | .erasing peers rest =>
    if w.isWritten then some (w.goOn (.deletingRooms peers rest)) else none
  | .deletingRooms peers rest => some (w.goOn (.records peers rest))
  | .finished _ => none

/-- Run the first operation of the queue. A mutation is reported as soon as it is committed. -/
def runQueue (w : World) : Option World :=
  match w.queue with
  | [] => none
  | .mutation mutation :: rest =>
    some { w with
      roster := mutation.run w.roster
      queue := rest
      mutationRevision := w.mutationRevision + 1
      mutationPending := true
      committed := w.committed ++ [mutation] }
  | .mesh write :: rest => some { w with roster := write.run w.roster, queue := rest }

end Apply

end World

/-! ## Runs -/

/-- What the user, the mesh and the secure store do. -/
inductive Label
  | mutate (mutation : Mutation)
  | runQueue
  | startApply (members : List MeshMember) (allowPendingMutation : Bool)
  | resumeApply
  | mutationsPublished
  | ownerChanges (current : Bool)
  deriving DecidableEq

section Runs

variable (toStandardB64 toAppEpk : String → String)

/-- One step of the app. -/
def step (w : World) : Label → Option World
  | .mutate mutation => some { w with queue := w.queue ++ [.mutation mutation] }
  | .runQueue => w.runQueue
  | .startApply members allowPendingMutation =>
    match w.apply.stage with
    | .finished _ =>
      let begun : World :=
        { w with
          apply :=
            { blobMembers := members
              mutationRevision := w.mutationRevision
              allowPendingMutation := allowPendingMutation
              stage := .listing }
          committed := [] }
      if begun.Current ∧ w.isWritten = true then some begun else none
    | _ => none
  | .resumeApply => w.resumeApply toStandardB64 toAppEpk
  | .mutationsPublished => some { w with mutationPending := false }
  | .ownerChanges current => some { w with ownerCurrent := current }

/-- No apply has begun, and nothing has been queued. -/
structure Initial (w : World) : Prop where
  queue : w.queue = []
  stage : w.apply.stage = .finished true
  committed : w.committed = []
  revision : w.apply.mutationRevision = w.mutationRevision

/-- Changes of the user, the queue and the call interleave freely. -/
def machine : Machine World Label where
  Init := Initial
  step := step toStandardB64 toAppEpk

end Runs

/-! ## What was changed since the apply began -/

/-- The last mutation of a peer. -/
def lastOn (remoteEpk : String) (mutations : List Mutation) : Option Mutation :=
  (mutations.filter fun mutation => mutation.remoteEpk = remoteEpk).getLast?

/-- A write that undoes a mutation of the same peer. -/
def Mutation.contradicts : Mutation → MeshWrite → Bool
  | .savePairedPeer _, .deletePeerSilent _ => true
  | .deletePeer _, .saveMeshPeerMetadata _ => true
  | .savePairedPeer _, .saveMeshPeerMetadata _ => false
  | .deletePeer _, .deletePeerSilent _ => false

/-- A write does not undo the last of some mutations of its peer. -/
def Compatible (mutations : List Mutation) (write : MeshWrite) : Prop :=
  ∀ mutation ∈ lastOn write.remoteEpk mutations, mutation.contradicts write = false

instance (mutations : List Mutation) (write : MeshWrite) :
    Decidable (Compatible mutations write) :=
  inferInstanceAs (Decidable (∀ mutation ∈ lastOn _ _, _))

/-- A mutation is what the stored peer shows. -/
def Mutation.Shown (roster : Roster) : Mutation → Prop
  | .savePairedPeer record => ∃ stored ∈ roster.lookup record.remoteEpk,
    stored.channel = record.channel
  | .deletePeer remoteEpk => roster.lookup remoteEpk = none

/-- The changes of the user that are queued. -/
def mutationsOf (queue : List StorageOp) : List Mutation :=
  queue.filterMap fun op =>
    match op with
    | .mutation mutation => some mutation
    | .mesh _ => none

/-- The writes in a queue are compatible with the mutations before them. -/
def QueueSafe (committed : List Mutation) : List StorageOp → Prop
  | [] => True
  | .mutation mutation :: rest => QueueSafe (committed ++ [mutation]) rest
  | .mesh write :: rest => Compatible committed write ∧ QueueSafe committed rest

variable {queue : List StorageOp}

theorem queueSafe_append_mutation {committed : List Mutation} (safe : QueueSafe committed queue)
    (mutation : Mutation) : QueueSafe committed (queue ++ [.mutation mutation]) := by
  induction queue generalizing committed with
  | nil => trivial
  | cons op rest ih =>
    cases op with
    | mutation first => exact ih safe
    | mesh write => exact ⟨safe.1, ih safe.2⟩

variable {write : MeshWrite}

theorem queueSafe_append_mesh {committed : List Mutation} (safe : QueueSafe committed queue)
    (compatible : Compatible (committed ++ mutationsOf queue) write) :
    QueueSafe committed (queue ++ [.mesh write]) := by
  induction queue generalizing committed with
  | nil => exact ⟨by simpa [mutationsOf] using compatible, trivial⟩
  | cons op rest ih =>
    cases op with
    | mutation first =>
      apply ih safe
      simpa [mutationsOf] using compatible
    | mesh other => exact ⟨safe.1, ih safe.2 (by simpa [mutationsOf] using compatible)⟩

theorem queueSafe_of_written (written : queue.all StorageOp.isMutation = true)
    (committed : List Mutation) : QueueSafe committed queue := by
  induction queue generalizing committed with
  | nil => trivial
  | cons op rest ih =>
    rw [List.all_cons, Bool.and_eq_true] at written
    cases op with
    | mutation mutation => exact ih written.2 _
    | mesh write => cases written.1

/-! ### Lookups -/

variable {roster : Roster} {remoteEpk : String}

theorem lookup_writePeer_of_ne {record : PeerRecord} {flags : WriteFlags}
    (differs : remoteEpk ≠ record.remoteEpk) :
    (writePeer roster record flags).lookup remoteEpk = roster.lookup remoteEpk := by
  rw [writePeer]
  dsimp only
  split
  · rfl
  · exact AList.lookup_insert_ne differs

variable {mutation : Mutation}

theorem lookup_run_of_ne (differs : remoteEpk ≠ mutation.remoteEpk) :
    (mutation.run roster).lookup remoteEpk = roster.lookup remoteEpk := by
  cases mutation with
  | savePairedPeer record => exact lookup_writePeer_of_ne differs
  | deletePeer erased => exact AList.lookup_erase_ne differs

theorem lookup_meshRun_of_ne (differs : remoteEpk ≠ write.remoteEpk) :
    (write.run roster).lookup remoteEpk = roster.lookup remoteEpk := by
  cases write with
  | saveMeshPeerMetadata record => exact lookup_writePeer_of_ne differs
  | deletePeerSilent erased => exact AList.lookup_erase_ne differs

/-- A pairing replaces what was stored. -/
theorem lookup_savePairedPeer (roster : Roster) (record : PeerRecord) :
    ((Mutation.savePairedPeer record).run roster).lookup record.remoteEpk = some record := by
  rw [Mutation.run, writePeer, if_neg (by simp)]
  dsimp only
  rw [AList.lookup_insert]
  obtain ⟨remoteEpk, sessionName, relayUrl, pairedAt, nickname, roomId, harness, channel⟩ := record
  cases channel <;> simp [channelToWrite]

/-- Metadata leave the channel that is stored. -/
theorem lookup_saveMeshPeerMetadata (roster : Roster) (record : PeerRecord) :
    ((MeshWrite.saveMeshPeerMetadata record).run roster).lookup record.remoteEpk =
      some { record with
        channel := (roster.lookup record.remoteEpk).bind PeerRecord.channel } := by
  rw [MeshWrite.run, writePeer, if_neg (by simp)]
  dsimp only
  rw [AList.lookup_insert]
  cases roster.lookup record.remoteEpk <;> simp [channelToWrite, restoredChannel]

/-- What a mutation shows depends on its own peer only. -/
theorem Mutation.Shown.congr {roster' : Roster}
    (same : roster'.lookup mutation.remoteEpk = roster.lookup mutation.remoteEpk)
    (shown : mutation.Shown roster) : mutation.Shown roster' := by
  cases mutation with
  | savePairedPeer record =>
    obtain ⟨stored, found, channel⟩ := shown
    exact ⟨stored, same.trans found, channel⟩
  | deletePeer remoteEpk => exact same.trans shown

/-- A mutation shows as soon as it has run. -/
theorem Mutation.shown_run (roster : Roster) (mutation : Mutation) :
    mutation.Shown (mutation.run roster) := by
  cases mutation with
  | savePairedPeer record =>
    exact ⟨record, lookup_savePairedPeer roster record, rfl⟩
  | deletePeer remoteEpk => exact AList.lookup_erase remoteEpk roster

/-- A write that does not undo a mutation leaves what it shows. -/
theorem Mutation.Shown.meshRun (shown : mutation.Shown roster)
    (same : mutation.remoteEpk = write.remoteEpk) (agrees : mutation.contradicts write = false) :
    mutation.Shown (write.run roster) := by
  cases mutation with
  | savePairedPeer paired =>
    cases write with
    | saveMeshPeerMetadata record =>
      obtain ⟨stored, found, channel⟩ := shown
      change paired.remoteEpk = record.remoteEpk at same
      rw [Option.mem_def, same] at found
      -- the stored record is the one of the members, with the channel that was paired
      refine ⟨{ record with
        channel := (roster.lookup record.remoteEpk).bind PeerRecord.channel }, ?_, ?_⟩
      · rw [Option.mem_def, same]
        exact lookup_saveMeshPeerMetadata roster record
      · dsimp only
        rw [found]
        exact channel
    | deletePeerSilent remoteEpk => cases agrees
  | deletePeer erased =>
    cases write with
    | saveMeshPeerMetadata record => cases agrees
    | deletePeerSilent remoteEpk =>
      change erased = remoteEpk at same
      subst same
      exact AList.lookup_erase erased roster

theorem lastOn_append_self (mutations : List Mutation) (mutation : Mutation) :
    lastOn mutation.remoteEpk (mutations ++ [mutation]) = some mutation := by
  simp [lastOn, List.filter_append]

theorem lastOn_append_of_ne (differs : mutation.remoteEpk ≠ remoteEpk) (mutations : List Mutation) :
    lastOn remoteEpk (mutations ++ [mutation]) = lastOn remoteEpk mutations := by
  simp [lastOn, List.filter_append, differs]

theorem remoteEpk_of_lastOn {mutations : List Mutation}
    (last : mutation ∈ lastOn remoteEpk mutations) : mutation.remoteEpk = remoteEpk := by
  have mem := List.mem_of_getLast? last
  exact of_decide_eq_true (List.mem_filter.mp mem).2

/-! ## Runs that are fenced -/

section Fenced

variable {toStandardB64 toAppEpk : String → String} {w w' : World}

/-- A write of the apply is queued only when it does not undo the last mutation of its peer in the
queue. -/
def Fenced (toStandardB64 toAppEpk : String → String) (w : World) : Label → Prop
  | .resumeApply => w.Current → ∀ write ∈ w.nextWrite toStandardB64 toAppEpk,
    Compatible (mutationsOf w.queue) write
  | _ => True

instance (w : World) : (label : Label) → Decidable (Fenced toStandardB64 toAppEpk w label)
  | .resumeApply => inferInstanceAs (Decidable (w.Current → ∀ write ∈ _, _))
  | .mutate _ | .runQueue | .startApply _ _ | .mutationsPublished | .ownerChanges _ =>
    isTrue trivial

/-- The stored peers show the last mutations, the queue undoes none, and a current apply has seen
none. -/
structure Preserved (w : World) : Prop where
  shown : ∀ remoteEpk, ∀ mutation ∈ lastOn remoteEpk w.committed, mutation.Shown w.roster
  queue : QueueSafe w.committed w.queue
  began : w.apply.mutationRevision ≤ w.mutationRevision
  unseen : w.apply.mutationRevision = w.mutationRevision → w.committed = []

theorem Preserved.runQueue (preserved : Preserved w) (ran : w.runQueue = some w') :
    Preserved w' := by
  rw [World.runQueue] at ran
  split at ran
  · cases ran
  · next mutation rest queued =>
    cases ran
    have safe := preserved.queue
    rw [queued] at safe
    refine ⟨?_, safe, Nat.le_succ_of_le preserved.began, fun same => ?_⟩
    · intro remoteEpk last isLast
      by_cases own : mutation.remoteEpk = remoteEpk
      · subst own
        rw [lastOn_append_self] at isLast
        cases isLast
        exact Mutation.shown_run _ _
      · rw [lastOn_append_of_ne own] at isLast
        have epk := remoteEpk_of_lastOn isLast
        apply (preserved.shown remoteEpk last isLast).congr
        exact lookup_run_of_ne (epk ▸ Ne.symm own)
    · exact absurd same (Nat.ne_of_lt (Nat.lt_succ_of_le preserved.began))
  · next write rest queued =>
    cases ran
    have safe := preserved.queue
    rw [queued] at safe
    refine ⟨?_, safe.2, preserved.began, preserved.unseen⟩
    intro remoteEpk last isLast
    have shown := preserved.shown remoteEpk last isLast
    have epk := remoteEpk_of_lastOn isLast
    by_cases own : remoteEpk = write.remoteEpk
    · exact shown.meshRun (epk.trans own) (safe.1 last (own ▸ isLast))
    · exact shown.congr (lookup_meshRun_of_ne (epk ▸ own))

/-- A step of the apply that writes nothing. -/
theorem Preserved.goTo (preserved : Preserved w) (stage : ApplyStage) :
    Preserved (w.goTo stage) :=
  { preserved with }

/-- A write that the apply queues while it is current. -/
theorem Preserved.await (preserved : Preserved w) (current : w.Current)
    (compatible : Compatible (mutationsOf w.queue) write) (stage : ApplyStage) :
    Preserved (w.await write stage) := by
  refine { preserved with queue := ?_ }
  apply queueSafe_append_mesh preserved.queue
  rw [preserved.unseen current.1, List.nil_append]
  exact compatible

theorem Preserved.resumeApply (preserved : Preserved w)
    (fenced : Fenced toStandardB64 toAppEpk w .resumeApply)
    (resumed : w.resumeApply toStandardB64 toAppEpk = some w') : Preserved w' := by
  rw [World.resumeApply] at resumed
  split at resumed
  · cases resumed
    exact preserved.goTo _
  · cases resumed
    exact preserved.goTo _
  · cases resumed
    exact preserved.goTo _
  · split at resumed
    · next current =>
      split at resumed
      · next write due =>
        cases resumed
        exact preserved.await current (fenced current write due) _
      · cases resumed
        exact preserved.goTo _
    · cases resumed
      exact preserved.goTo _
  · obtain ⟨_, rfl⟩ := Machine.of_guard resumed
    exact preserved.goTo _
  · cases resumed
    exact preserved.goTo _
  · split at resumed
    · next current =>
      split at resumed
      · next write due =>
        cases resumed
        exact preserved.await current (fenced current write due) _
      · cases resumed
        exact preserved.goTo _
    · cases resumed
      exact preserved.goTo _
  · obtain ⟨_, rfl⟩ := Machine.of_guard resumed
    exact preserved.goTo _
  · cases resumed
    exact preserved.goTo _
  · cases resumed

theorem Preserved.step {label : Label} (preserved : Preserved w)
    (fenced : Fenced toStandardB64 toAppEpk w label)
    (taken : step toStandardB64 toAppEpk w label = some w') : Preserved w' := by
  cases label with
  | mutate mutation =>
    cases taken
    exact { preserved with queue := queueSafe_append_mutation preserved.queue mutation }
  | runQueue => exact preserved.runQueue taken
  | startApply members allowPendingMutation =>
    simp only [MeshApply.step] at taken
    split at taken
    · obtain ⟨ready, rfl⟩ := Machine.of_guard taken
      refine ⟨fun remoteEpk last isLast => ?_, ?_, Nat.le_refl _, fun _ => rfl⟩
      · cases isLast
      · exact queueSafe_of_written ready.2 []
    · cases taken
  | resumeApply => exact preserved.resumeApply fenced taken
  | mutationsPublished =>
    cases taken
    exact { preserved with }
  | ownerChanges current =>
    cases taken
    exact { preserved with }

/-- In a fenced run, what was last paired or deleted since the apply began is what is stored: the
pairing has its channel, and the deleted peer is absent. -/
theorem apply_keeps_local_changes
    (reached : (machine toStandardB64 toAppEpk).ReachableUnder
      (Fenced toStandardB64 toAppEpk) w) (remoteEpk : String) :
    ∀ mutation ∈ lastOn remoteEpk w.committed, mutation.Shown w.roster := by
  have preserved : Preserved w := by
    refine reached.invariant ?_ fun t label t' preserved fenced taken =>
      preserved.step fenced taken
    intro t initial
    refine ⟨?_, ?_, Nat.le_of_eq initial.revision, fun _ => initial.committed⟩
    · rw [initial.committed]
      exact fun _ _ none => nomatch none
    · rw [initial.queue]
      trivial
  exact preserved.shown remoteEpk

end Fenced

/-! ## Two peers -/

/-- The standard spelling of a key whose characters are the same in both alphabets. -/
def padded (remoteEpk : String) : String :=
  if '=' ∈ remoteEpk.toList then remoteEpk else remoteEpk.push '='

/-- The spelling of such a key in the stores of the app. -/
def unpadded (remoteEpk : String) : String :=
  String.ofList (remoteEpk.toList.filter fun c => c ≠ '=')

/-- A peer that was hydrated from the mesh. -/
def hydratedPeer : PeerRecord where
  remoteEpk := "cGVlcnBlZXJwZWVycGVlcnBlZXJwZWVycGVlcnBlZXI"
  sessionName := "laptop"
  relayUrl := "wss://relay"
  pairedAt := "2026-01-01T00:00:00Z"
  nickname := none
  roomId := none
  harness := none
  channel := none

/-- The same peer after this device has paired with it. -/
def pairedPeer : PeerRecord :=
  { hydratedPeer with
    channel := some { keys := ⟨"sent", "received"⟩, sendSequence := 0, receiveSequence := 0 } }

/-- The same peer as the blob lists it, under another nickname. -/
def renamedMember : MeshMember where
  remoteEpk := "cGVlcnBlZXJwZWVycGVlcnBlZXJwZWVycGVlcnBlZXI="
  relayUrl := "wss://relay"
  pairedAt := "2026-01-01T00:00:00Z"
  nickname := some "work"

/-- A device that knows the peer from the mesh only. -/
def hydratedWorld : World where
  roster := (∅ : Roster).insert hydratedPeer.remoteEpk hydratedPeer
  queue := []
  mutationRevision := 0
  mutationPending := false
  ownerCurrent := true
  apply :=
    { blobMembers := []
      mutationRevision := 0
      allowPendingMutation := false
      stage := .finished true }
  committed := []

theorem initial_hydratedWorld : Initial hydratedWorld :=
  ⟨rfl, rfl, rfl, rfl⟩

/-- An apply that renames a peer while it is paired. -/
theorem apply_keeps_local_changes_rename :
    ∃ w, (machine padded unpadded).ReachableUnder (Fenced padded unpadded) w ∧
      lastOn hydratedPeer.remoteEpk w.committed = some (.savePairedPeer pairedPeer) ∧
      (Mutation.savePairedPeer pairedPeer).Shown w.roster := by
  let M := machine padded unpadded
  let schedule : List Label :=
    [.startApply [renamedMember] false, .resumeApply, .resumeApply,
      .mutate (.savePairedPeer pairedPeer), .resumeApply, .runQueue, .runQueue, .resumeApply]
  have ran : (M.exec hydratedWorld schedule).any (fun w =>
      decide (lastOn hydratedPeer.remoteEpk w.committed = some (.savePairedPeer pairedPeer))) =
        true := by decide +kernel
  have meets : M.Meets (Fenced padded unpadded) hydratedWorld schedule := by decide +kernel
  obtain ⟨w, executed, last⟩ := (Option.any_eq_true _ _).mp ran
  have reached : M.ReachableUnder (Fenced padded unpadded) w :=
    ⟨hydratedWorld, initial_hydratedWorld, Machine.runsTo_of_exec meets executed⟩
  have paired := of_decide_eq_true last
  exact ⟨w, reached, paired,
    apply_keeps_local_changes reached hydratedPeer.remoteEpk _ paired⟩

/-- A peer is deleted while the write of its nickname waits behind the deletion: it is stored
again. A peer is paired while its removal waits behind the pairing: its channel is gone. -/
theorem exists_local_change_undone :
    (∃ w, (machine padded unpadded).Reachable w ∧ w.apply.stage = .finished false ∧
      w.committed = [.deletePeer hydratedPeer.remoteEpk] ∧
      (w.roster.lookup hydratedPeer.remoteEpk).isSome = true) ∧
    ∃ w, (machine padded unpadded).Reachable w ∧ w.apply.stage = .finished false ∧
      w.committed = [.savePairedPeer pairedPeer] ∧
      w.roster.lookup hydratedPeer.remoteEpk = none := by
  let M := machine padded unpadded
  constructor
  · let schedule : List Label :=
      [.startApply [renamedMember] false, .resumeApply, .resumeApply,
        .mutate (.deletePeer hydratedPeer.remoteEpk), .resumeApply, .runQueue, .runQueue,
        .resumeApply]
    have ran : (M.exec hydratedWorld schedule).any (fun w =>
        decide (w.apply.stage = .finished false ∧
          w.committed = [.deletePeer hydratedPeer.remoteEpk] ∧
          (w.roster.lookup hydratedPeer.remoteEpk).isSome = true)) = true := by decide +kernel
    obtain ⟨w, executed, facts⟩ := (Option.any_eq_true _ _).mp ran
    exact ⟨w, Machine.reachable_of_exec initial_hydratedWorld executed, of_decide_eq_true facts⟩
  · let schedule : List Label :=
      [.startApply [] false, .resumeApply, .resumeApply, .resumeApply,
        .mutate (.savePairedPeer pairedPeer), .resumeApply, .runQueue, .runQueue, .resumeApply]
    have ran : (M.exec hydratedWorld schedule).any (fun w =>
        decide (w.apply.stage = .finished false ∧ w.committed = [.savePairedPeer pairedPeer] ∧
          w.roster.lookup hydratedPeer.remoteEpk = none)) = true := by decide +kernel
    obtain ⟨w, executed, facts⟩ := (Option.any_eq_true _ _).mp ran
    exact ⟨w, Machine.reachable_of_exec initial_hydratedWorld executed, of_decide_eq_true facts⟩

end OutpostPi.App.MeshApply
