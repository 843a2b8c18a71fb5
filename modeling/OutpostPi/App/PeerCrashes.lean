import OutpostPi.App.PeerEntries

/-!
# Crashes between the two entries of a peer

The operations of `PairingStorage` run one after the other. Each reads what it needs and then makes
its writes, and a crash may come before any of them. What a step must respect (`Lawful`) is that
sequences stored under the same keys do not go back, that keys which can be read are lost only to a
pairing or a deletion of their peer, and that keys become readable only through an operation that
brings them.

A deletion that crashes between its two entries leaves the channel without its peer. Mesh metadata
and a pairing clear such an entry before they create the peer, a restore does not: given a record
without a channel, it makes the old keys readable again. Where no restore meets that (`Cleared`),
every step is lawful (`steps_lawful`).
-/

set_option autoImplicit false

namespace OutpostPi.App.PeerEntries

open OutpostPi.Lib

/-! ## Operations -/

/-- An operation of the storage. Those that only skip the hook write the same. -/
inductive StorageOp
  | savePairedPeer (record : PeerRecord)
  | savePeer (record : PeerRecord)
  | saveMeshPeerMetadata (record : PeerRecord)
  | restorePeerSnapshotSilent (record : PeerRecord) (stillCurrent : Bool)
  | saveChannelState (remoteEpk : String) (channel : OwnerChannelState)
  | deletePeer (remoteEpk : String)
  deriving DecidableEq

/-- The writes of `_writePeer` from its first read on. -/
def writesFor (store : SecureStore) (record : PeerRecord) (flags : WriteFlags) :
    List StoreWrite :=
  let peerExists := (store.peers.lookup record.remoteEpk).isSome
  if !peerExists && !flags.allowCreate then []
  else peerWrites record flags peerExists (store.channels.lookup record.remoteEpk)

/-- The write of `saveChannelState`, unless it throws. -/
def channelWrites (store : SecureStore) (remoteEpk : String) (channel : OwnerChannelState) :
    List StoreWrite :=
  match store.peers.lookup remoteEpk, store.channels.lookup remoteEpk with
  | some _, some current =>
    if current.keys = channel.keys then [.writeChannel remoteEpk (maxMerge current channel)]
    else []
  | _, _ => []

/-- The writes that an operation makes, from what it reads. -/
def StorageOp.writes (store : SecureStore) : StorageOp → List StoreWrite
  | .savePairedPeer record =>
    writesFor store record { allowCreate := true, replaceChannelKeys := true }
  | .savePeer record => writesFor store record {}
  | .saveMeshPeerMetadata record =>
    writesFor store record { allowCreate := true, metadataOnly := true }
  | .restorePeerSnapshotSilent record stillCurrent =>
    if !stillCurrent then []
    else writesFor store record { allowCreate := true, restoreChannelIfAbsent := true }
  | .saveChannelState remoteEpk channel => channelWrites store remoteEpk channel
  | .deletePeer remoteEpk => eraseWrites remoteEpk

/-- The writes of a writer are those it makes when no call throws. -/
theorem applyAll_writesFor (store : SecureStore) (record : PeerRecord) (flags : WriteFlags) :
    applyAll store (writesFor store record flags) = (writePeer none store record flags).1 := by
  rw [writePeer_none, writesFor]
  split <;> rfl

/-- A pairing brings keys that its peer does not have. -/
def StorageOp.Fresh (store : SecureStore) : StorageOp → Prop
  | .savePairedPeer record =>
    ∀ current ∈ store.channels.lookup record.remoteEpk, ∀ supplied ∈ record.channel,
      current.keys ≠ supplied.keys
  | _ => True

instance (store : SecureStore) : ∀ op : StorageOp, Decidable (op.Fresh store)
  | .savePairedPeer record =>
    inferInstanceAs (Decidable (∀ current ∈ store.channels.lookup record.remoteEpk,
      ∀ supplied ∈ record.channel, current.keys ≠ supplied.keys))
  | .savePeer _ => .isTrue trivial
  | .saveMeshPeerMetadata _ => .isTrue trivial
  | .restorePeerSnapshotSilent _ _ => .isTrue trivial
  | .saveChannelState _ _ => .isTrue trivial
  | .deletePeer _ => .isTrue trivial

/-! ## Runs -/

/-- An operation and the writes that it has still to make. -/
structure Job where
  op : StorageOp
  rest : List StoreWrite
  deriving DecidableEq

structure State where
  store : SecureStore
  job : Option Job

inductive Label
  | start (op : StorageOp)
  | write
  | done
  | crash
  deriving DecidableEq

def step (s : State) : Label → Option State
  | .start op =>
    match s.job with
    | some _ => none
    | none => if op.Fresh s.store then some { s with job := some ⟨op, op.writes s.store⟩ } else none
  | .write =>
    match s.job with
    | some ⟨op, write :: rest⟩ => some ⟨write.apply s.store, some ⟨op, rest⟩⟩
    | _ => none
  | .done =>
    match s.job with
    | some ⟨_, []⟩ => some { s with job := none }
    | _ => none
  | .crash => some { s with job := none }

/-- The storage, from a secure store with any content. -/
def storage : Machine State Label where
  Init s := s.job = none
  step := step

/-- What a step does. -/
inductive Took (s : State) : Label → State → Prop
  | start {op : StorageOp} (idle : s.job = none) (fresh : op.Fresh s.store) :
    Took s (.start op) { s with job := some ⟨op, op.writes s.store⟩ }
  | write {op : StorageOp} {write : StoreWrite} {rest : List StoreWrite}
      (busy : s.job = some ⟨op, write :: rest⟩) :
    Took s .write ⟨write.apply s.store, some ⟨op, rest⟩⟩
  | done {op : StorageOp} (busy : s.job = some ⟨op, []⟩) : Took s .done { s with job := none }
  | crash : Took s .crash { s with job := none }

variable {s : State}

theorem took_of_step {s' : State} {label : Label} (taken : storage.step s label = some s') :
    Took s label s' := by
  cases label with
  | start op =>
    simp only [storage, step] at taken
    split at taken
    · cases taken
    · next idle =>
      obtain ⟨fresh, rfl⟩ := Machine.of_guard taken
      exact .start idle fresh
  | write =>
    simp only [storage, step] at taken
    split at taken
    · next busy =>
      cases taken
      exact .write busy
    · cases taken
  | done =>
    simp only [storage, step] at taken
    split at taken
    · next busy =>
      cases taken
      exact .done busy
    · cases taken
  | crash =>
    cases taken
    exact .crash

/-! ## Lawful steps -/

/-- What is stored for the peer has these channel keys. -/
def Readable (store : SecureStore) (remoteEpk : String) (keys : ChannelKeys) : Prop :=
  ∃ record, loadPeer store remoteEpk = some record ∧
    ∃ channel, record.channel = some channel ∧ channel.keys = keys

/-- The operation replaces or removes the keys of the peer. -/
def StorageOp.Replaces (remoteEpk : String) : StorageOp → Prop
  | .savePairedPeer record => record.remoteEpk = remoteEpk
  | .deletePeer removed => removed = remoteEpk
  | _ => False

/-- The operation is given the keys for the peer, by a pairing or in a captured record. -/
def StorageOp.Brings (remoteEpk : String) (keys : ChannelKeys) : StorageOp → Prop
  | .savePairedPeer record | .restorePeerSnapshotSilent record _ =>
    record.remoteEpk = remoteEpk ∧ record.channel.map OwnerChannelState.keys = some keys
  | _ => False

/-- What an operation may change of the channels. -/
structure Lawful (op : StorageOp) (store store' : SecureStore) : Prop where
  monotone : ∀ remoteEpk channel channel', store.channels.lookup remoteEpk = some channel →
    store'.channels.lookup remoteEpk = some channel' → channel'.keys = channel.keys →
      ∀ side, channel.sequence side ≤ channel'.sequence side
  kept : ∀ remoteEpk keys, Readable store remoteEpk keys →
    Readable store' remoteEpk keys ∨ op.Replaces remoteEpk
  brought : ∀ remoteEpk keys, Readable store' remoteEpk keys →
    Readable store remoteEpk keys ∨ op.Brings remoteEpk keys

/-- Where a channel entry is left without its peer, a restore of that peer brings a channel. -/
def Cleared (s : State) : Label → Prop
  | .start (.restorePeerSnapshotSilent record _) =>
    record.channel.isSome = true ∨ (s.store.peers.lookup record.remoteEpk).isSome = true ∨
      s.store.channels.lookup record.remoteEpk = none
  | _ => True

variable {store : SecureStore}

theorem readable_iff {remoteEpk : String} {keys : ChannelKeys} :
    Readable store remoteEpk keys ↔ (store.peers.lookup remoteEpk).isSome = true ∧
      ∃ channel, store.channels.lookup remoteEpk = some channel ∧ channel.keys = keys := by
  simp only [Readable, loadPeer, Option.map_eq_some_iff, Option.isSome_iff_exists]
  constructor
  · rintro ⟨record, ⟨entry, stored, rfl⟩, readable⟩
    exact ⟨⟨entry, stored⟩, readable⟩
  · rintro ⟨⟨entry, stored⟩, readable⟩
    exact ⟨_, ⟨entry, stored, rfl⟩, readable⟩

theorem Lawful.refl (op : StorageOp) (store : SecureStore) : Lawful op store store where
  monotone remoteEpk channel channel' stored stored' _ side := by
    cases stored.symm.trans stored'
    exact Nat.le_refl _
  kept _ _ readable := .inl readable
  brought _ _ readable := .inl readable

variable {op : StorageOp}

/-- A change of one peer is lawful when it is so for this peer. -/
theorem Lawful.of_own {store' : SecureStore} (remoteEpk : String)
    (frame : ∀ other, other ≠ remoteEpk →
      store'.peers.lookup other = store.peers.lookup other ∧
        store'.channels.lookup other = store.channels.lookup other)
    (monotone : ∀ channel channel', store.channels.lookup remoteEpk = some channel →
      store'.channels.lookup remoteEpk = some channel' → channel'.keys = channel.keys →
        ∀ side, channel.sequence side ≤ channel'.sequence side)
    (kept : ∀ keys, Readable store remoteEpk keys →
      Readable store' remoteEpk keys ∨ op.Replaces remoteEpk)
    (brought : ∀ keys, Readable store' remoteEpk keys →
      Readable store remoteEpk keys ∨ op.Brings remoteEpk keys) : Lawful op store store' := by
  have same {other : String} (ne : other ≠ remoteEpk) (keys : ChannelKeys) :
      Readable store' other keys ↔ Readable store other keys := by
    rw [readable_iff, readable_iff, (frame other ne).1, (frame other ne).2]
  refine ⟨?_, ?_, ?_⟩
  · intro other channel channel' stored stored' own
    by_cases here : other = remoteEpk
    · subst here
      exact monotone channel channel' stored stored' own
    · rw [(frame other here).2] at stored'
      cases stored.symm.trans stored'
      exact fun _ => Nat.le_refl _
  · intro other keys readable
    by_cases here : other = remoteEpk
    · subst here
      exact kept keys readable
    · exact .inl ((same here keys).mpr readable)
  · intro other keys readable
    by_cases here : other = remoteEpk
    · subst here
      exact brought keys readable
    · exact .inl ((same here keys).mp readable)

/-! ## Sound writes -/

/-- The write, made for the operation, is lawful where it is made. -/
def Sound (op : StorageOp) (store : SecureStore) : StoreWrite → Prop
  | .writePeer remoteEpk _ =>
    (store.peers.lookup remoteEpk).isSome = true ∨
      ∀ channel, store.channels.lookup remoteEpk = some channel →
        op.Brings remoteEpk channel.keys
  | .writeChannel remoteEpk state =>
    (∃ current, store.channels.lookup remoteEpk = some current ∧ current.keys = state.keys ∧
      ∀ side, current.sequence side ≤ state.sequence side) ∨
    (∀ current, store.channels.lookup remoteEpk = some current → current.keys ≠ state.keys) ∧
      op.Brings remoteEpk state.keys ∧
        (store.peers.lookup remoteEpk = none ∨ op.Replaces remoteEpk)
  | .deletePeer remoteEpk => op.Replaces remoteEpk
  | .deleteChannel remoteEpk =>
    store.peers.lookup remoteEpk = none ∨ op.Replaces remoteEpk

theorem Sound.lawful {write : StoreWrite} (sound : Sound op store write) :
    Lawful op store (write.apply store) := by
  -- each write changes one entry: the others are as before, and its own is checked for each law
  cases write with
  | writePeer remoteEpk entry =>
    refine .of_own remoteEpk (fun other ne => ⟨AList.lookup_insert_ne ne, rfl⟩)
      ?_ ?_ ?_
    · exact (Lawful.refl op store).monotone remoteEpk
    · intro keys readable
      rw [readable_iff] at readable
      refine .inl (readable_iff.mpr ⟨?_, readable.2⟩)
      exact Option.isSome_iff_exists.mpr ⟨entry, AList.lookup_insert _⟩
    · intro keys readable
      obtain ⟨-, channel, stored, rfl⟩ := readable_iff.mp readable
      rcases sound with present | brings
      · exact .inl (readable_iff.mpr ⟨present, channel, stored, rfl⟩)
      · exact .inr (brings channel stored)
  | writeChannel remoteEpk state =>
    have written : (store.channels.insert remoteEpk state).lookup remoteEpk = some state :=
      AList.lookup_insert _
    refine .of_own remoteEpk (fun other ne => ⟨rfl, AList.lookup_insert_ne ne⟩)
      ?_ ?_ ?_
    -- the same keys, and no lower sequence numbers
    · intro channel channel' stored stored' own
      cases written.symm.trans stored'
      rcases sound with ⟨current, found, -, lower⟩ | ⟨other, -, -⟩
      · cases stored.symm.trans found
        exact lower
      · exact absurd own.symm (other channel stored)
    · intro keys readable
      obtain ⟨present, channel, stored, rfl⟩ := readable_iff.mp readable
      rcases sound with ⟨current, found, own, -⟩ | ⟨-, -, absent | replaces⟩
      · cases stored.symm.trans found
        exact .inl (readable_iff.mpr ⟨present, state, written, own.symm⟩)
      · rw [absent] at present
        cases present
      · exact .inr replaces
    · intro keys readable
      obtain ⟨present, channel, stored, rfl⟩ := readable_iff.mp readable
      cases written.symm.trans stored
      rcases sound with ⟨current, found, own, -⟩ | ⟨-, brings, -⟩
      · exact .inl (readable_iff.mpr ⟨present, current, found, own⟩)
      · exact .inr brings
  | deletePeer remoteEpk =>
    refine .of_own remoteEpk (fun other ne => ⟨AList.lookup_erase_ne ne, rfl⟩)
      ?_ (fun _ _ => .inr sound) ?_
    · exact (Lawful.refl op store).monotone remoteEpk
    · intro keys readable
      have present := (readable_iff.mp readable).1
      rw [show ((StoreWrite.deletePeer remoteEpk).apply store).peers.lookup remoteEpk = none from
        AList.lookup_erase _ _] at present
      cases present
  | deleteChannel remoteEpk =>
    have gone : (store.channels.erase remoteEpk).lookup remoteEpk = none := AList.lookup_erase _ _
    refine .of_own remoteEpk (fun other ne => ⟨rfl, AList.lookup_erase_ne ne⟩)
      ?_ ?_ ?_
    · intro channel channel' _ stored'
      cases gone.symm.trans stored'
    · intro keys readable
      rcases sound with absent | replaces
      · have present := (readable_iff.mp readable).1
        rw [absent] at present
        cases present
      · exact .inr replaces
    · intro keys readable
      obtain ⟨-, channel, stored, -⟩ := readable_iff.mp readable
      cases gone.symm.trans stored

/-- Every write of the list is lawful where it is made. -/
def SoundAll (op : StorageOp) : SecureStore → List StoreWrite → Prop
  | _, [] => True
  | store, write :: rest => Sound op store write ∧ SoundAll op (write.apply store) rest

variable {flags : WriteFlags} {supplied : Option OwnerChannelState}

theorem restoredChannel_some {peerExists : Bool} {state : OwnerChannelState}
    (restored : restoredChannel flags peerExists supplied = some state) :
    peerExists = false ∧ flags.restoreChannelIfAbsent = true ∧ supplied = some state := by
  rw [restoredChannel] at restored
  split at restored
  · next absent =>
    rw [Bool.and_eq_true, Bool.not_eq_true'] at absent
    exact ⟨absent.1, absent.2, restored⟩
  · cases restored

theorem restoredChannel_absent (supplied : Option OwnerChannelState)
    (restores : flags.restoreChannelIfAbsent = true) :
    restoredChannel flags false supplied = supplied := by
  rw [restoredChannel, restores]
  rfl

/-- The state to write is supplied for a replacement, or it is stored and raised, or it is supplied
for a peer that is gone. -/
theorem channelToWrite_some {peerExists : Bool} {current : Option OwnerChannelState}
    {state : OwnerChannelState}
    (chosen : channelToWrite flags peerExists current supplied = some state) :
    flags.replaceChannelKeys = true ∧ supplied = some state ∨
      (flags.replaceChannelKeys = false ∧ flags.metadataOnly = false ∧ ∃ before given,
        current = some before ∧ supplied = some given ∧ before.keys = given.keys ∧
          state = maxMerge before given) ∨
      peerExists = false ∧ flags.restoreChannelIfAbsent = true ∧ supplied = some state ∧
        (flags.metadataOnly = false → ∀ before, current = some before →
          before.keys ≠ state.keys) := by
  unfold channelToWrite at chosen
  split at chosen
  · next replaces => exact .inl ⟨replaces, chosen⟩
  · next keepsKeys =>
    refine .inr ?_
    split at chosen
    · next before given metadata =>
      split at chosen
      · next own =>
        exact .inl ⟨Bool.not_eq_true _ ▸ keepsKeys, metadata, before, given, rfl, rfl, own,
          (Option.some.inj chosen).symm⟩
      · next other =>
        obtain ⟨absent, restores, same⟩ := restoredChannel_some chosen
        cases same
        refine .inr ⟨absent, restores, rfl, ?_⟩
        rintro - before ⟨⟩
        exact other
    · next unmatched =>
      obtain ⟨absent, restores, rfl⟩ := restoredChannel_some chosen
      refine .inr ⟨absent, restores, rfl, ?_⟩
      rintro metadata before rfl
      exact absurd rfl (unmatched before state metadata rfl)

/-- A restore of an absent peer writes the channel that it is given. -/
theorem channelToWrite_isSome {current : Option OwnerChannelState}
    (restores : flags.restoreChannelIfAbsent = true) (given : supplied.isSome = true) :
    (channelToWrite flags false current supplied).isSome = true := by
  unfold channelToWrite
  split
  · exact given
  · split
    · split
      · rfl
      · rw [restoredChannel_absent _ restores]
        rfl
    · rw [restoredChannel_absent _ restores]
      exact given

/-- The writes of a writer are lawful, when it says by its flags what it may bring or replace, and
creates no peer over a channel that is left. -/
theorem soundAll_writesFor {record : PeerRecord}
    (replaces : flags.replaceChannelKeys = true → op.Replaces record.remoteEpk ∧
      ∀ current ∈ store.channels.lookup record.remoteEpk, ∀ supplied ∈ record.channel,
        current.keys ≠ supplied.keys)
    (brings : flags.replaceChannelKeys = true ∨ flags.restoreChannelIfAbsent = true →
      ∀ supplied ∈ record.channel, op.Brings record.remoteEpk supplied.keys)
    (exclusive : flags.restoreChannelIfAbsent = true → flags.metadataOnly = false)
    (clears : flags.allowCreate = true → store.peers.lookup record.remoteEpk = none →
      flags.replaceChannelKeys = true ∨ flags.metadataOnly = true ∨
        flags.restoreChannelIfAbsent = true ∧ (record.channel.isSome = true ∨
          store.channels.lookup record.remoteEpk = none)) :
    SoundAll op store (writesFor store record flags) := by
  -- a peer that is created is created by a writer that clears or brings the channel
  have created (absent : (store.peers.lookup record.remoteEpk).isSome = false)
      (admitted : ¬(!(store.peers.lookup record.remoteEpk).isSome && !flags.allowCreate) = true) :
      flags.replaceChannelKeys = true ∨ flags.metadataOnly = true ∨
        flags.restoreChannelIfAbsent = true ∧ (record.channel.isSome = true ∨
          store.channels.lookup record.remoteEpk = none) := by
    rw [absent] at admitted
    exact clears (by simpa using admitted) (by simpa using absent)
  simp only [writesFor]
  split
  · trivial
  · next admitted =>
    simp only [peerWrites]
    split
    · next cleared =>
      refine ⟨?_, .inr ?_, trivial⟩
      · rw [Bool.or_eq_true, Bool.and_eq_true, Bool.and_eq_true] at cleared
        rcases cleared with ⟨absent, -⟩ | ⟨replacing, -⟩
        · refine .inl ?_
          simpa using absent
        · exact .inr (replaces replacing).1
      · intro channel left
        have gone : (store.channels.erase record.remoteEpk).lookup record.remoteEpk = none :=
          AList.lookup_erase _ _
        cases gone.symm.trans left
    · next kept =>
      split
      · next state chosen =>
        have present : (store.channels.insert record.remoteEpk state).lookup record.remoteEpk =
            some state := AList.lookup_insert _
        have all (brought : (store.peers.lookup record.remoteEpk).isSome = true ∨
            op.Brings record.remoteEpk state.keys) (first : Sound op store
              (.writeChannel record.remoteEpk state)) :
            SoundAll op store [.writeChannel record.remoteEpk state,
              .writePeer record.remoteEpk (toJson record)] := by
          refine ⟨first, brought.imp id ?_, trivial⟩
          intro brings channel found
          cases present.symm.trans found
          exact brings
        rcases channelToWrite_some chosen with ⟨replacing, given⟩ |
          ⟨keepsKeys, metadata, before, supplied, current, given, own, rfl⟩ |
            ⟨absent, restores, given, differs⟩
        · exact all (.inr (brings (.inl replacing) state given))
            (.inr ⟨fun current found => (replaces replacing).2 current found state given,
              brings (.inl replacing) state given, .inr (replaces replacing).1⟩)
        · refine all ?_ (.inl ⟨before, current, own, fun side =>
            (sequence_maxMerge before supplied side).1⟩)
          cases absent : (store.peers.lookup record.remoteEpk).isSome with
          | true => exact .inl rfl
          | false =>
            rcases created absent admitted with replacing | metadata' | ⟨restores, -⟩
            · rw [keepsKeys] at replacing
              cases replacing
            · rw [metadata] at metadata'
              cases metadata'
            · exact .inr (brings (.inr restores) supplied given)
        · exact all (.inr (brings (.inr restores) state given))
            (.inr ⟨differs (exclusive restores), brings (.inr restores) state given,
              .inl (by simpa using absent)⟩)
      · next skipped =>
        refine ⟨?_, trivial⟩
        cases absent : (store.peers.lookup record.remoteEpk).isSome with
        | true => exact .inl absent
        | false =>
          rw [absent] at kept skipped
          rw [skipped] at kept
          refine .inr ?_
          rcases created absent admitted with replacing | metadata | ⟨restores, given | none⟩
          · rw [replacing] at kept
            exact absurd (Bool.or_true _) kept
          · rw [metadata] at kept
            exact absurd rfl kept
          · have written : (channelToWrite flags false
                (store.channels.lookup record.remoteEpk) record.channel).isSome = true :=
              channelToWrite_isSome restores given
            rw [skipped] at written
            cases written
          · intro channel found
            cases none.symm.trans found

/-! ## Sound operations -/

theorem sound_channelWrites (op : StorageOp) (store : SecureStore) (remoteEpk : String)
    (channel : OwnerChannelState) : SoundAll op store (channelWrites store remoteEpk channel) := by
  simp only [channelWrites]
  split
  · next entry current stored found =>
    split
    · next own =>
      exact ⟨.inl ⟨current, found, own, fun side => (sequence_maxMerge current channel side).1⟩,
        trivial⟩
    · trivial
  · trivial

theorem soundAll_writes (fresh : op.Fresh s.store) (cleared : Cleared s (.start op)) :
    SoundAll op s.store (op.writes s.store) := by
  cases op with
  | savePairedPeer record =>
    refine soundAll_writesFor (fun _ => ⟨rfl, fresh⟩) ?_ nofun (fun _ _ => .inl rfl)
    intro _ supplied given
    exact ⟨rfl, congrArg (Option.map OwnerChannelState.keys) given⟩
  | savePeer record => exact soundAll_writesFor nofun (by rintro (⟨⟨⟩⟩ | ⟨⟨⟩⟩)) nofun nofun
  | saveMeshPeerMetadata record =>
    exact soundAll_writesFor nofun (by rintro (⟨⟨⟩⟩ | ⟨⟨⟩⟩)) nofun (fun _ _ => .inr (.inl rfl))
  | restorePeerSnapshotSilent record stillCurrent =>
    cases stillCurrent with
    | false => trivial
    | true =>
      refine soundAll_writesFor nofun ?_ (fun _ => rfl) ?_
      · intro _ supplied given
        exact ⟨rfl, congrArg (Option.map OwnerChannelState.keys) given⟩
      · intro _ absent
        refine .inr (.inr ⟨rfl, ?_⟩)
        rcases cleared with given | present | none
        · exact .inl given
        · rw [absent] at present
          cases present
        · exact .inr none
  | saveChannelState remoteEpk channel => exact sound_channelWrites _ s.store remoteEpk channel
  | deletePeer remoteEpk => exact ⟨rfl, .inr rfl, trivial⟩

/-! ## Every run -/

/-- What is left of the running operation is sound. -/
def Ready (s : State) : Prop :=
  ∀ op rest, s.job = some ⟨op, rest⟩ → SoundAll op s.store rest

theorem ready_step {s' : State} {label : Label} (ready : Ready s) (cleared : Cleared s label)
    (taken : storage.step s label = some s') : Ready s' := by
  intro op rest running
  cases took_of_step taken with
  | start idle fresh =>
    cases running
    exact soundAll_writes fresh cleared
  | write busy =>
    cases running
    exact (ready op _ busy).2
  | done busy => cases running
  | crash => cases running

theorem ready_of_reached (reached : storage.ReachableUnder Cleared s) : Ready s := by
  refine reached.invariant ?_ fun _ _ _ => ready_step
  intro t initial op rest running
  rw [show t.job = none from initial] at running
  cases running

/-- The step changes the store as its operation may. -/
def LawfulStep (s s' : State) : Prop :=
  s'.store = s.store ∨ ∃ op rest, s.job = some ⟨op, rest⟩ ∧ Lawful op s.store s'.store

theorem lawful_of_ready {s' : State} {label : Label} (ready : Ready s)
    (taken : storage.step s label = some s') : LawfulStep s s' := by
  cases took_of_step taken with
  | start idle fresh => exact .inl rfl
  | write busy => exact .inr ⟨_, _, busy, (ready _ _ busy).1.lawful⟩
  | done busy => exact .inl rfl
  | crash => exact .inl rfl

/-- As long as no restore creates a peer without a channel over one that was left, no step of any
run moves sequences back, changes readable keys other than by a pairing or a deletion, or makes
keys readable that it was not given. -/
theorem steps_lawful {s s' : State} {label : Label} (reached : storage.ReachableUnder Cleared s)
    (taken : storage.step s label = some s') : LawfulStep s s' :=
  lawful_of_ready (ready_of_reached reached) taken

instance (s : State) : ∀ label : Label, Decidable (Cleared s label)
  | .start (.restorePeerSnapshotSilent record _) =>
    inferInstanceAs (Decidable (record.channel.isSome = true ∨
      (s.store.peers.lookup record.remoteEpk).isSome = true ∨
        s.store.channels.lookup record.remoteEpk = none))
  | .start (.savePairedPeer _) | .start (.savePeer _) | .start (.saveMeshPeerMetadata _)
  | .start (.saveChannelState _ _) | .start (.deletePeer _) | .write | .done | .crash =>
    .isTrue trivial

private def deskRecord : PeerRecord :=
  ⟨"pi", "desk", "wss://relay", "2026-01-01T00:00:00Z", none, none, none,
    some ⟨⟨"s", "r"⟩, 7, 4⟩⟩

private def emptyStorage : State := ⟨⟨∅, ∅⟩, none⟩

/-- A peer is paired, its deletion crashes after the first write, and mesh metadata brings the peer
back without the channel. -/
theorem steps_lawful_metadata : ∃ s s' : State, storage.ReachableUnder Cleared s ∧
    storage.step s .write = some s' ∧ loadPeer s'.store "pi" ≠ none ∧ LawfulStep s s' := by
  have meets : storage.Meets Cleared emptyStorage [.start (.savePairedPeer deskRecord), .write,
      .write, .done, .start (.deletePeer "pi"), .write, .crash,
      .start (.saveMeshPeerMetadata deskRecord), .write] := by
    decide +kernel
  have ran : ((storage.exec emptyStorage [.start (.savePairedPeer deskRecord), .write,
      .write, .done, .start (.deletePeer "pi"), .write, .crash,
      .start (.saveMeshPeerMetadata deskRecord), .write]).any fun s =>
        (storage.step s .write).any fun s' => decide (loadPeer s'.store "pi" ≠ none)) = true := by
    decide +kernel
  obtain ⟨s, executed, onward⟩ := (Option.any_eq_true _ _).mp ran
  obtain ⟨s', taken, back⟩ := (Option.any_eq_true _ _).mp onward
  have reached : storage.ReachableUnder Cleared s :=
    ⟨emptyStorage, rfl, Machine.runsTo_of_exec meets executed⟩
  exact ⟨s, s', reached, taken, of_decide_eq_true back, steps_lawful reached taken⟩

/-- A restore without a channel makes the keys of a deleted peer readable again. -/
theorem exists_keys_reattached : ∃ (s s' : State) (record : PeerRecord) (keys : ChannelKeys),
    storage.Reachable s ∧ storage.step s .write = some s' ∧
      s.job.map Job.op = some (.restorePeerSnapshotSilent record true) ∧ record.channel = none ∧
        ¬ Readable s.store record.remoteEpk keys ∧ Readable s'.store record.remoteEpk keys ∧
          ¬ LawfulStep s s' := by
  let bare : PeerRecord := { deskRecord with channel := none }
  have ran : ((storage.exec emptyStorage [.start (.savePairedPeer deskRecord), .write,
      .write, .done, .start (.deletePeer "pi"), .write, .crash,
      .start (.restorePeerSnapshotSilent bare true)]).any fun s =>
        (storage.step s .write).any fun s' => decide (loadPeer s.store "pi" = none ∧
          s.job.map Job.op = some (.restorePeerSnapshotSilent bare true) ∧
            loadPeer s'.store "pi" = some deskRecord)) = true := by
    decide +kernel
  obtain ⟨s, executed, onward⟩ := (Option.any_eq_true _ _).mp ran
  obtain ⟨s', taken, facts⟩ := (Option.any_eq_true _ _).mp onward
  obtain ⟨absent, busy, back⟩ := of_decide_eq_true facts
  have hidden : ¬ Readable s.store "pi" ⟨"s", "r"⟩ := by
    rintro ⟨record, loaded, -⟩
    rw [absent] at loaded
    cases loaded
  have readable : Readable s'.store "pi" ⟨"s", "r"⟩ := ⟨deskRecord, back, _, rfl, rfl⟩
  refine ⟨s, s', bare, ⟨"s", "r"⟩, ⟨emptyStorage, rfl, Machine.runsTo_always_of_exec executed⟩, taken, busy, rfl,
    hidden, readable, ?_⟩
  rintro (same | ⟨op, rest, running, lawful⟩)
  · rw [same] at readable
    exact hidden readable
  · rw [running] at busy
    cases busy
    rcases lawful.brought "pi" ⟨"s", "r"⟩ readable with before | ⟨-, brings⟩
    · exact hidden before
    · cases brings

end OutpostPi.App.PeerEntries
