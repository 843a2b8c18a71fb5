import OutpostPi.App.MeshApply

/-!
# The two secure-store entries of a peer

A peer has an entry with its metadata, and a second one with the keys and sequences of its channel
once it is paired. `_writePeer` reads both, then writes or deletes the channel entry, and writes
the peer entry last. When a call inside its `try` throws, it deletes both entries.

While no call throws and no channel entry is left without its peer, this is the write of one record
(`represents_writePeer`). The error branch is meant for a pairing that was half made, but every
writer of metadata shares it: of the calls that can throw, only the first read, which stands before
the `try`, spares a peer that was stored with its channel (`failedWrite_kept_iff`).
-/

set_option autoImplicit false

namespace OutpostPi.App.PeerEntries

open OutpostPi.Lib

/-! ## Entries -/

/-- The record with all its fields, as the mesh apply sees it. -/
abbrev PeerRecord := MeshApply.PeerRecord

/-- What the JSON text of a peer entry encodes. The channel is not part of it. -/
structure PeerEntry where
  remoteEpk : String
  sessionName : String
  relayUrl : String
  pairedAt : String
  nickname : Option String
  roomId : Option String
  harness : Option String
  deriving DecidableEq

/-- The entries under the keys of peers and of their channels. -/
structure SecureStore where
  peers : Map String PeerEntry
  channels : Map String OwnerChannelState

/-- The peer entry of a record. -/
def toJson (record : PeerRecord) : PeerEntry where
  remoteEpk := record.remoteEpk
  sessionName := record.sessionName
  relayUrl := record.relayUrl
  pairedAt := record.pairedAt
  nickname := record.nickname
  roomId := record.roomId
  harness := record.harness

/-- The record of a peer entry and of the channel entry beside it. -/
def decodePeer (entry : PeerEntry) (channel : Option OwnerChannelState) : PeerRecord where
  remoteEpk := entry.remoteEpk
  sessionName := entry.sessionName
  relayUrl := entry.relayUrl
  pairedAt := entry.pairedAt
  nickname := entry.nickname
  roomId := entry.roomId
  harness := entry.harness
  channel := channel

/-- The record of a peer, if there is a peer entry. -/
def loadPeer (store : SecureStore) (remoteEpk : String) : Option PeerRecord :=
  (store.peers.lookup remoteEpk).map fun entry =>
    decodePeer entry (store.channels.lookup remoteEpk)

/-- A call that changes one entry. -/
inductive StoreWrite
  | writePeer (remoteEpk : String) (entry : PeerEntry)
  | writeChannel (remoteEpk : String) (state : OwnerChannelState)
  | deletePeer (remoteEpk : String)
  | deleteChannel (remoteEpk : String)
  deriving DecidableEq

/-- What a write does to the store. -/
def StoreWrite.apply (store : SecureStore) : StoreWrite → SecureStore
  | .writePeer remoteEpk entry => { store with peers := store.peers.insert remoteEpk entry }
  | .writeChannel remoteEpk state =>
    { store with channels := store.channels.insert remoteEpk state }
  | .deletePeer remoteEpk => { store with peers := store.peers.erase remoteEpk }
  | .deleteChannel remoteEpk => { store with channels := store.channels.erase remoteEpk }

/-- Writes one after another. -/
def applyAll (store : SecureStore) (writes : List StoreWrite) : SecureStore :=
  writes.foldl StoreWrite.apply store

/-- The writes of `_erasePeer`, and of the error branch of `_writePeer`. -/
def eraseWrites (remoteEpk : String) : List StoreWrite :=
  [.deletePeer remoteEpk, .deleteChannel remoteEpk]

/-- The writes of `_writePeer`, from what it has read. -/
def peerWrites (record : PeerRecord) (flags : WriteFlags) (peerExists : Bool)
    (current : Option OwnerChannelState) : List StoreWrite :=
  let written := channelToWrite flags peerExists current record.channel
  if (!peerExists && flags.metadataOnly) || (flags.replaceChannelKeys && written.isNone) then
    [.deleteChannel record.remoteEpk, .writePeer record.remoteEpk (toJson record)]
  else
    match written with
    | some state =>
      [.writeChannel record.remoteEpk state, .writePeer record.remoteEpk (toJson record)]
    | none => [.writePeer record.remoteEpk (toJson record)]

/-! ## Calls that can throw -/

/-- A call inside `_writePeer`. -/
inductive Fault
  | readPeer
  | readChannel
  | decodeChannel
  /-- The write at this place. -/
  | write (index : Nat)
  deriving DecidableEq

/-- The write that fails, if it is one. -/
def Fault.place : Fault → Option Nat
  | .write index => some index
  | _ => none

/-- How a call of a writer ends. -/
inductive Answer
  | returns (written : Bool)
  | throws
  deriving DecidableEq

/-- Make the writes in order, until the one at the place of the fault throws. -/
def tryWrites : Option Nat → SecureStore → List StoreWrite → SecureStore × Bool
  | _, store, [] => (store, true)
  | some 0, store, _ :: _ => (store, false)
  | some (n + 1), store, write :: rest => tryWrites (some n) (write.apply store) rest
  | none, store, write :: rest => tryWrites none (write.apply store) rest

/-- `_writePeer`, when the call named by the fault throws. -/
def writePeer (fault : Option Fault) (store : SecureStore) (record : PeerRecord)
    (flags : WriteFlags) : SecureStore × Answer :=
  let peerExists := (store.peers.lookup record.remoteEpk).isSome
  let current := store.channels.lookup record.remoteEpk
  if fault = some .readPeer then (store, .throws)
  else if !peerExists && !flags.allowCreate then (store, .returns false)
  else if fault = some .readChannel ∨ (fault = some .decodeChannel ∧ current.isSome = true) then
    (applyAll store (eraseWrites record.remoteEpk), .throws)
  else
    match tryWrites (fault.bind Fault.place) store
      (peerWrites record flags peerExists current) with
    | (store', true) => (store', .returns true)
    | (store', false) => (applyAll store' (eraseWrites record.remoteEpk), .throws)

/-- A pairing writes the record with its keys. -/
def savePairedPeer (fault : Option Fault) (store : SecureStore) (record : PeerRecord) :
    SecureStore × Answer :=
  writePeer fault store record { allowCreate := true, replaceChannelKeys := true }

/-- A change of metadata is written to a peer that is there. -/
def savePeer (fault : Option Fault) (store : SecureStore) (record : PeerRecord) :
    SecureStore × Answer :=
  writePeer fault store record {}

/-- The mesh writes metadata, also of a new peer. -/
def saveMeshPeerMetadata (fault : Option Fault) (store : SecureStore) (record : PeerRecord) :
    SecureStore × Answer :=
  writePeer fault store record { allowCreate := true, metadataOnly := true }

/-- The record from before a write is put back, unless the store has moved on. -/
def restorePeerSnapshotSilent (fault : Option Fault) (store : SecureStore) (record : PeerRecord)
    (stillCurrent : Bool) : SecureStore × Answer :=
  if !stillCurrent then (store, .returns false)
  else writePeer fault store record { allowCreate := true, restoreChannelIfAbsent := true }

/-- The writers that leave the keys of a stored channel alone. -/
inductive MetadataWriter
  | savePeer
  | saveMeshPeerMetadata
  | restorePeerSnapshotSilent (stillCurrent : Bool)
  deriving DecidableEq

/-- The call of a writer. -/
def MetadataWriter.call (fault : Option Fault) (store : SecureStore) (record : PeerRecord) :
    MetadataWriter → SecureStore × Answer
  | .savePeer => PeerEntries.savePeer fault store record
  | .saveMeshPeerMetadata => PeerEntries.saveMeshPeerMetadata fault store record
  | .restorePeerSnapshotSilent stillCurrent =>
    PeerEntries.restorePeerSnapshotSilent fault store record stillCurrent

/-! ## What a writer leaves -/

theorem decodePeer_toJson (record : PeerRecord) (channel : Option OwnerChannelState) :
    decodePeer (toJson record) channel = { record with channel := channel } := rfl

theorem tryWrites_none (store : SecureStore) (writes : List StoreWrite) :
    tryWrites none store writes = (applyAll store writes, true) := by
  induction writes generalizing store with
  | nil => rfl
  | cons write rest ih => exact ih (write.apply store)

@[simp] theorem peers_peerWrites (store : SecureStore) (record : PeerRecord) (flags : WriteFlags)
    (peerExists : Bool) (current : Option OwnerChannelState) :
    (applyAll store (peerWrites record flags peerExists current)).peers =
      store.peers.insert record.remoteEpk (toJson record) := by
  simp only [peerWrites]
  split
  · rfl
  · split <;> rfl

/-- The channel entry of the record itself. -/
theorem channel_peerWrites (store : SecureStore) (record : PeerRecord) (flags : WriteFlags)
    (peerExists : Bool) (current : Option OwnerChannelState) :
    (applyAll store (peerWrites record flags peerExists current)).channels.lookup
        record.remoteEpk =
      if (!peerExists && flags.metadataOnly) || (flags.replaceChannelKeys &&
          (channelToWrite flags peerExists current record.channel).isNone) then none
      else
        (channelToWrite flags peerExists current record.channel).or
          (store.channels.lookup record.remoteEpk) := by
  simp only [peerWrites]
  split
  · exact AList.lookup_erase _ _
  · cases channelToWrite flags peerExists current record.channel with
    | none => rfl
    | some state => exact AList.lookup_insert _

theorem channel_peerWrites_of_ne (store : SecureStore) {record : PeerRecord} (flags : WriteFlags)
    (peerExists : Bool) (current : Option OwnerChannelState) {other : String}
    (ne : other ≠ record.remoteEpk) :
    (applyAll store (peerWrites record flags peerExists current)).channels.lookup other =
      store.channels.lookup other := by
  simp only [peerWrites]
  split
  · exact AList.lookup_erase_ne ne
  · cases channelToWrite flags peerExists current record.channel with
    | none => rfl
    | some state => exact AList.lookup_insert_ne ne

/-- A writer whose calls all succeed. -/
theorem writePeer_none (store : SecureStore) (record : PeerRecord) (flags : WriteFlags) :
    writePeer none store record flags =
      if !(store.peers.lookup record.remoteEpk).isSome && !flags.allowCreate then
        (store, .returns false)
      else
        (applyAll store (peerWrites record flags (store.peers.lookup record.remoteEpk).isSome
          (store.channels.lookup record.remoteEpk)), .returns true) := by
  simp [writePeer, tryWrites_none]

/-- A writer that throws after its first read leaves no entry of the peer. -/
theorem writePeer_of_throws {fault : Option Fault} {store store' : SecureStore}
    {record : PeerRecord} {flags : WriteFlags}
    (threw : writePeer fault store record flags = (store', .throws)) :
    fault = some .readPeer ∧ store' = store ∨
      fault ≠ some .readPeer ∧ store'.peers.lookup record.remoteEpk = none ∧
        store'.channels.lookup record.remoteEpk = none := by
  have erased (before : SecureStore) :
      (applyAll before (eraseWrites record.remoteEpk)).peers.lookup record.remoteEpk = none ∧
        (applyAll before (eraseWrites record.remoteEpk)).channels.lookup record.remoteEpk =
          none :=
    ⟨AList.lookup_erase _ _, AList.lookup_erase _ _⟩
  simp only [writePeer] at threw
  split at threw
  · next first =>
    cases threw
    exact .inl ⟨first, rfl⟩
  · next later =>
    refine .inr ⟨later, ?_⟩
    split at threw
    · cases threw
    · split at threw
      · cases threw
        exact erased store
      · split at threw
        · cases threw
        · cases threw
          exact erased _

/-! ## One record in two entries -/

/-- The two entries of every peer make the record that the roster has. -/
def Represents (roster : MeshApply.Roster) (store : SecureStore) : Prop :=
  ∀ remoteEpk, loadPeer store remoteEpk = roster.lookup remoteEpk

/-- Where no channel entry is left without its peer, the two entries are written as one record. -/
theorem represents_writePeer {roster : MeshApply.Roster} {store : SecureStore}
    {record : PeerRecord} (flags : WriteFlags) (represents : Represents roster store)
    (owned : store.peers.lookup record.remoteEpk = none →
      store.channels.lookup record.remoteEpk = none) :
    Represents (MeshApply.writePeer roster record flags)
      (writePeer none store record flags).1 := by
  have here := represents record.remoteEpk
  have entry : (roster.lookup record.remoteEpk).isSome =
      (store.peers.lookup record.remoteEpk).isSome := by
    rw [← here, loadPeer, Option.isSome_map]
  have channel : (roster.lookup record.remoteEpk).bind MeshApply.PeerRecord.channel =
      store.channels.lookup record.remoteEpk := by
    rw [← here, loadPeer]
    cases stored : store.peers.lookup record.remoteEpk with
    | none => exact (owned stored).symm
    | some entry => rfl
  rw [writePeer_none]
  simp only [MeshApply.writePeer, ← Option.not_isSome, entry, channel]
  split
  · exact represents
  · intro other
    by_cases same : other = record.remoteEpk
    · subst same
      rw [loadPeer, peers_peerWrites, AList.lookup_insert, AList.lookup_insert, Option.map_some,
        channel_peerWrites, decodePeer_toJson]
      simp only [Option.not_isSome]
    · rw [loadPeer, peers_peerWrites, AList.lookup_insert_ne same, AList.lookup_insert_ne same,
        channel_peerWrites_of_ne _ _ _ _ same]
      exact represents other

theorem represents_erase {roster : MeshApply.Roster} {store : SecureStore} (remoteEpk : String)
    (represents : Represents roster store) :
    Represents (roster.erase remoteEpk) (applyAll store (eraseWrites remoteEpk)) := by
  intro other
  by_cases same : other = remoteEpk
  · subst same
    rw [AList.lookup_erase]
    change (AList.lookup other (AList.erase other store.peers)).map _ = none
    rw [AList.lookup_erase]
    rfl
  · rw [AList.lookup_erase_ne same]
    change (AList.lookup other (AList.erase remoteEpk store.peers)).map _ = _
    rw [AList.lookup_erase_ne same]
    change (AList.lookup other store.peers).map (fun entry => decodePeer entry
      (AList.lookup other (AList.erase remoteEpk store.channels))) = _
    rw [AList.lookup_erase_ne same]
    exact represents other

/-! ## Failed writes -/

/-- The peer still has its record, as before or as supplied, and its channel, with the same keys
and no lower sequence. -/
def Kept (store : SecureStore) (record : PeerRecord) (store' : SecureStore) : Prop :=
  (∃ entry, store'.peers.lookup record.remoteEpk = some entry ∧
    (store.peers.lookup record.remoteEpk = some entry ∨ entry = toJson record)) ∧
  ∃ channel channel', store.channels.lookup record.remoteEpk = some channel ∧
    store'.channels.lookup record.remoteEpk = some channel' ∧ channel'.keys = channel.keys ∧
      ∀ side, channel.sequence side ≤ channel'.sequence side

section StoredPeer

variable {store : SecureStore} {record : PeerRecord} {entry : PeerEntry}
  {channel : OwnerChannelState} {fault : Option Fault}

theorem Kept.refl (stored : store.peers.lookup record.remoteEpk = some entry)
    (paired : store.channels.lookup record.remoteEpk = some channel) :
    Kept store record store :=
  ⟨⟨entry, stored, .inl stored⟩, channel, channel, paired, paired, rfl, fun _ => Nat.le_refl _⟩

/-- A writer of metadata is `_writePeer` without the flag to replace keys, or does nothing. -/
theorem MetadataWriter.call_eq (fault : Option Fault) (store : SecureStore) (record : PeerRecord)
    (writer : MetadataWriter) :
    writer.call fault store record = (store, .returns false) ∨
      ∃ flags : WriteFlags, flags.replaceChannelKeys = false ∧
        writer.call fault store record = writePeer fault store record flags := by
  cases writer with
  | savePeer => exact .inr ⟨_, rfl, rfl⟩
  | saveMeshPeerMetadata => exact .inr ⟨_, rfl, rfl⟩
  | restorePeerSnapshotSilent stillCurrent =>
    cases stillCurrent with
    | false => exact .inl rfl
    | true => exact .inr ⟨_, rfl, rfl⟩

/-- A write of metadata that throws keeps the pairing exactly when the call that failed was the
read of the peer entry. -/
theorem failedWrite_kept_iff {fault : Fault}
    (stored : store.peers.lookup record.remoteEpk = some entry)
    (paired : store.channels.lookup record.remoteEpk = some channel) (writer : MetadataWriter)
    (failed : (writer.call (some fault) store record).2 = .throws) :
    Kept store record (writer.call (some fault) store record).1 ↔ fault = .readPeer := by
  rcases writer.call_eq (some fault) store record with
    skipped | ⟨flags, -, called⟩
  · rw [skipped] at failed
    cases failed
  · rw [called] at failed ⊢
    cases ended : writePeer (some fault) store record flags with
    | mk store' answer =>
      rw [ended] at failed
      cases failed
      rcases writePeer_of_throws ended with ⟨first, rfl⟩ | ⟨later, gone, -⟩
      · exact ⟨fun _ => Option.some.inj first, fun _ => .refl stored paired⟩
      · constructor
        · -- no entry of the peer is left
          rintro ⟨⟨entry', kept, -⟩, -⟩
          rw [gone] at kept
          cases kept
        · rintro rfl
          exact absurd rfl later

end StoredPeer

/-- A paired peer. -/
private def pairedRecord : PeerRecord :=
  ⟨"pi", "desk", "wss://relay", "2026-01-01T00:00:00Z", none, none, none,
    some ⟨⟨"s", "r"⟩, 7, 4⟩⟩

/-- The store after the pairing. -/
private def pairedStore : SecureStore :=
  (savePairedPeer none ⟨∅, ∅⟩ pairedRecord).1

/-- A record is saved again as it is. The pairing outlives a failed read of the peer entry, and not
one of the channel entry. -/
theorem failedWrite_kept_iff_savePeer :
    ∃ (store : SecureStore) (record : PeerRecord),
      ((savePeer (some .readPeer) store record).2 = .throws ∧
        Kept store record (savePeer (some .readPeer) store record).1) ∧
      (savePeer (some .readChannel) store record).2 = .throws ∧
        ¬ Kept store record (savePeer (some .readChannel) store record).1 := by
  have stored : pairedStore.peers.lookup pairedRecord.remoteEpk = some (toJson pairedRecord) := by
    decide +kernel
  have paired : pairedStore.channels.lookup pairedRecord.remoteEpk =
      some ⟨⟨"s", "r"⟩, 7, 4⟩ := by
    decide +kernel
  have unread : (savePeer (some .readPeer) pairedStore pairedRecord).2 = .throws := by
    decide +kernel
  have failed : (savePeer (some .readChannel) pairedStore pairedRecord).2 = .throws := by
    decide +kernel
  refine ⟨pairedStore, pairedRecord, ⟨unread, ?_⟩, failed, fun kept => ?_⟩
  · exact (failedWrite_kept_iff stored paired .savePeer unread).mpr rfl
  · cases (failedWrite_kept_iff stored paired .savePeer failed).mp kept

/-- A name is given to a paired peer, and the write of the peer entry fails. -/
theorem exists_pairing_lost :
    ∃ (store : SecureStore) (record : PeerRecord) (entry : PeerEntry)
      (channel : OwnerChannelState),
      store.peers.lookup record.remoteEpk = some entry ∧
        store.channels.lookup record.remoteEpk = some channel ∧
          (savePeer (some (.write 1)) store record).2 = .throws ∧
            ¬ Kept store record (savePeer (some (.write 1)) store record).1 := by
  refine ⟨pairedStore, { pairedRecord with nickname := some "study" }, toJson pairedRecord,
    ⟨⟨"s", "r"⟩, 7, 4⟩, by decide +kernel, by decide +kernel, by decide +kernel, ?_⟩
  rintro ⟨⟨entry, kept, -⟩, -⟩
  have gone : (savePeer (some (.write 1)) pairedStore
      { pairedRecord with nickname := some "study" }).1.peers.lookup "pi" = none := by
    decide +kernel
  cases gone.symm.trans kept

end OutpostPi.App.PeerEntries
