import OutpostPi.Lib.Machine
import OutpostPi.Relay.RoomChecks

/-!
# Deduplication of room snapshots on one connection

The cache of a connection holds the last answer about each peer. Its byte count is the sum over
the entries (`Accounted`), and remembering an answer keeps both bounds, whatever is replaced or
evicted. The eviction loop removes an entry in every round, so it ends in any state.

A connection is a run of snapshots, each of which is emitted or suppressed. `dedup_exact` says
that a suppressed snapshot is the last one that was emitted about its peer.
-/

set_option autoImplicit false

namespace OutpostPi.Relay

open OutpostPi.Lib

namespace RoomsDedupCache

/-- The bytes of an entry. -/
def entryBytes (peerId : PeerId) (entry : CachedRoomsResponse) : Nat :=
  peerId.utf8ByteSize + entry.response.utf8ByteSize

/-- The retained bytes are those of the entries. -/
def Accounted (cache : RoomsDedupCache) : Prop :=
  cache.retainedBytes = cache.entries.sumOf entryBytes

/-- The cache keeps its byte count and both bounds. -/
structure WellFormed (cache : RoomsDedupCache) : Prop where
  accounted : cache.Accounted
  entries : cache.entries.size ≤ roomsDedupCacheMaxEntries
  bytes : cache.retainedBytes ≤ roomsDedupCacheMaxBytes

/-- The eviction loop does not go on: the new entry fits, or no entry is left. -/
def Exits (cache : RoomsDedupCache) (entryBytes : Nat) : Prop :=
  (roomsDedupCacheMaxEntries ≤ cache.entries.size ∨
      roomsDedupCacheMaxBytes < cache.retainedBytes + entryBytes) →
    cache.oldestPeer = none

variable {cache : RoomsDedupCache} {peerId : PeerId} {response : String}

theorem wellFormed_empty : empty.WellFormed :=
  ⟨rfl, Nat.zero_le _, Nat.zero_le _⟩

/-! ## Removal -/

theorem entries_remove : (cache.remove peerId).entries = cache.entries.erase peerId := by
  rw [remove]
  split
  · next absent =>
    have notMem : peerId ∉ cache.entries := by
      rw [Map.mem_iff_lookup, absent]
      simp
    exact AList.ext (List.kerase_of_notMem_keys notMem).symm
  · rfl

theorem accounted_remove (accounted : cache.Accounted) (peerId : PeerId) :
    (cache.remove peerId).Accounted := by
  have erased := cache.entries.sumOf_erase entryBytes peerId
  rw [Accounted, entries_remove, remove]
  split
  · next absent =>
    rw [absent] at erased
    exact accounted.trans erased.symm
  · next previous found =>
    rw [found] at erased
    rw [Accounted] at accounted
    simp only [Option.map_some, Option.getD_some, entryBytes] at erased
    dsimp only
    rw [accounted]
    omega

theorem size_remove_le (cache : RoomsDedupCache) (peerId : PeerId) :
    (cache.remove peerId).entries.size ≤ cache.entries.size := by
  have erased := cache.entries.size_erase peerId
  rw [entries_remove]
  omega

theorem remembered_remove {other : PeerId} :
    (cache.remove peerId).remembered other =
      if other = peerId then none else cache.remembered other := by
  rw [remembered, entries_remove]
  split
  · next same => rw [same, AList.lookup_erase]; rfl
  · next distinct => rw [AList.lookup_erase_ne distinct]; rfl

/-! ## Eviction -/

/-- The oldest peer has an entry. -/
theorem size_remove_oldest {oldest : PeerId} (isOldest : cache.oldestPeer = some oldest) :
    (cache.remove oldest).entries.size + 1 = cache.entries.size := by
  rw [oldestPeer, Option.map_eq_some_iff] at isOldest
  obtain ⟨slot, isMin, rfl⟩ := isOldest
  have found : cache.entries.lookup slot.1 = some slot.2 :=
    AList.mem_lookup_iff.mpr (List.argmin_mem isMin)
  have erased := cache.entries.size_erase slot.1
  rw [found] at erased
  rw [entries_remove]
  exact erased

theorem oldestPeer_eq_none_iff : cache.oldestPeer = none ↔ cache.entries.size = 0 := by
  rw [oldestPeer, Option.map_eq_none_iff, List.argmin_eq_none, Map.size, List.length_eq_zero_iff]

/-- The loop ends by itself within as many rounds as there are entries. -/
theorem exits_makeRoom (cache : RoomsDedupCache) (bytes rounds : Nat)
    (enough : cache.entries.size ≤ rounds) :
    (makeRoom rounds cache bytes).Exits bytes := by
  induction rounds generalizing cache with
  | zero =>
    intro _
    exact oldestPeer_eq_none_iff.mpr (Nat.le_zero.mp enough)
  | succ rounds ih =>
    rw [makeRoom]
    split
    · split
      · next exhausted =>
        intro _
        exact exhausted
      · next oldest isOldest =>
        have smaller := size_remove_oldest isOldest
        exact ih _ (by omega)
    · next fits =>
      intro full
      exact absurd full fits

/-- Rounds beyond that change nothing. -/
theorem makeRoom_of_le (bytes rounds : Nat) (enough : cache.entries.size ≤ rounds) :
    makeRoom rounds cache bytes = makeRoom cache.entries.size cache bytes := by
  induction rounds generalizing cache with
  | zero => rw [Nat.le_zero.mp enough]
  | succ rounds ih =>
    cases count : cache.entries.size with
    | zero =>
      have exhausted := oldestPeer_eq_none_iff.mpr count
      simp only [makeRoom, exhausted]
      exact ite_self cache
    | succ size =>
      rw [makeRoom, makeRoom]
      split
      · split
        · rfl
        · next oldest isOldest =>
          have smaller := size_remove_oldest isOldest
          rw [ih (by omega), show (cache.remove oldest).entries.size = size by omega]
      · rfl

/-- Eviction keeps the byte count, and retains only what was there. -/
theorem makeRoom_spec (bytes rounds : Nat) (accounted : cache.Accounted) :
    (makeRoom rounds cache bytes).Accounted ∧
      ∀ peer kept, (makeRoom rounds cache bytes).remembered peer = some kept →
        cache.remembered peer = some kept := by
  induction rounds generalizing cache with
  | zero => exact ⟨accounted, fun _ _ found => found⟩
  | succ rounds ih =>
    rw [makeRoom]
    split
    · split
      · exact ⟨accounted, fun _ _ found => found⟩
      · next oldest _ =>
        obtain ⟨accounted', retained⟩ := ih (accounted_remove accounted oldest)
        refine ⟨accounted', ?_⟩
        intro peer kept found
        have before := retained peer kept found
        rw [remembered_remove] at before
        split at before
        · cases before
        · exact before
    · exact ⟨accounted, fun _ _ found => found⟩

/-! ## Remembering -/

/-- The cache after an answer is remembered: well formed, with the new answer about its peer or
none, and older answers only about the others. -/
theorem remember_spec (wellFormed : cache.WellFormed) (peerId : PeerId) (response : String) :
    (cache.remember peerId response).WellFormed ∧
      ∀ peer kept, (cache.remember peerId response).remembered peer = some kept →
        peer = peerId ∧ kept = response ∨ peer ≠ peerId ∧ cache.remembered peer = some kept := by
  have dropped := accounted_remove wellFormed.accounted peerId
  have fewer := size_remove_le cache peerId
  have before := wellFormed.entries
  rw [remember]
  dsimp only
  split
  · next oversized =>
    -- An answer that never fits leaves its peer without one.
    refine ⟨⟨dropped, fewer.trans before, ?_⟩, ?_⟩
    · have bytes := wellFormed.bytes
      rw [remove]
      split
      · exact bytes
      · exact (Nat.sub_le _ _).trans bytes
    · intro peer kept found
      rw [remembered_remove] at found
      split at found
      · cases found
      · next distinct => exact Or.inr ⟨distinct, found⟩
  · next fits =>
    have exits := exits_makeRoom (cache.remove peerId)
      (peerId.utf8ByteSize + response.utf8ByteSize) _ le_rfl
    obtain ⟨accounted, retained⟩ := makeRoom_spec
      (peerId.utf8ByteSize + response.utf8ByteSize) (cache.remove peerId).entries.size dropped
    generalize makeRoom (cache.remove peerId).entries.size (cache.remove peerId)
      (peerId.utf8ByteSize + response.utf8ByteSize) = fitting at exits accounted retained ⊢
    -- An exhausted cache counts no bytes, so the new entry fits there too.
    have room : fitting.entries.size < roomsDedupCacheMaxEntries ∧
        fitting.retainedBytes + (peerId.utf8ByteSize + response.utf8ByteSize) ≤
          roomsDedupCacheMaxBytes := by
      by_contra full
      have none : fitting.entries.size = 0 := by
        refine oldestPeer_eq_none_iff.mp (exits ?_)
        omega
      have entriesNil : fitting.entries.entries = [] := List.length_eq_zero_iff.mp none
      have noBytes : fitting.retainedBytes = 0 := by
        rw [accounted, Map.sumOf, entriesNil]
        rfl
      have positive : 0 < roomsDedupCacheMaxEntries := by decide
      omega
    have absent : fitting.entries.lookup peerId = none := by
      cases found : fitting.entries.lookup peerId with
      | none => rfl
      | some entry =>
        have before := retained peerId entry.response (by rw [remembered, found]; rfl)
        rw [remembered_remove, if_pos rfl] at before
        cases before
    have counted := fitting.entries.size_insert peerId ⟨response, fitting.tick⟩
    have summed := fitting.entries.sumOf_insert entryBytes peerId ⟨response, fitting.tick⟩
    rw [absent] at counted summed
    simp only [Option.map_none, Option.getD_none, Nat.add_zero] at counted summed
    refine ⟨⟨?_, ?_, room.2⟩, ?_⟩
    · rw [Accounted, summed, ← accounted]
      rfl
    · dsimp only
      omega
    · intro peer kept found
      rw [remembered] at found
      dsimp only at found
      by_cases same : peer = peerId
      · rw [same, AList.lookup_insert, Option.map_some, Option.some.injEq] at found
        exact Or.inl ⟨same, found.symm⟩
      · rw [AList.lookup_insert_ne same] at found
        have before := retained peer kept found
        rw [remembered_remove, if_neg same] at before
        exact Or.inr ⟨same, before⟩

/-- Comparing an answer with the retained one changes only when that was used. -/
theorem isUnchanged_spec (wellFormed : cache.WellFormed) (peerId : PeerId) (response : String) :
    (cache.isUnchanged peerId response).1.WellFormed ∧
      ∀ peer, (cache.isUnchanged peerId response).1.remembered peer = cache.remembered peer := by
  rw [isUnchanged]
  split
  · exact ⟨wellFormed, fun _ => rfl⟩
  · next entry found =>
    split
    · exact ⟨wellFormed, fun _ => rfl⟩
    · have counted := cache.entries.size_insert peerId { entry with lastUsed := cache.tick }
      have summed := cache.entries.sumOf_insert entryBytes peerId
        { entry with lastUsed := cache.tick }
      rw [found] at counted summed
      simp only [Option.map_some, Option.getD_some, entryBytes] at counted summed
      obtain ⟨accounted, entries, bytes⟩ := wellFormed
      refine ⟨⟨?_, ?_, bytes⟩, ?_⟩
      · rw [Accounted] at accounted ⊢
        dsimp only
        rw [accounted]
        simp only [Map.sumOf, entryBytes] at summed ⊢
        omega
      · dsimp only
        omega
      · intro peer
        rw [remembered, remembered]
        by_cases same : peer = peerId
        · rw [same, AList.lookup_insert, found]
          rfl
        · rw [AList.lookup_insert_ne same]

end RoomsDedupCache

/-! ## One connection -/

namespace RoomsDedup

/-- The state of a connection, and the frames it has emitted, the latest last. -/
structure State where
  actor : ConnectionActor
  emitted : List RoomsFrame

/-- The frame about a peer that was emitted last. -/
def lastEmitted (emitted : List RoomsFrame) (peer : PeerId) : Option RoomsFrame :=
  (emitted.filter fun frame => frame.peer == peer).getLast?

variable (serialize : RoomsFrame → String)

/-- One round of `emit_deduped_room_snapshots`, on the rooms as they are then. -/
def check (s : State) (store : RoomStateStore) (targetPeer : PeerId) : State :=
  let (actor, messages) := s.actor.emitRoomSnapshot serialize store targetPeer
  ⟨actor, s.emitted ++ messages⟩

/-- A call of `emit_deduped_room_snapshots`. -/
def emit (s : State) (store : RoomStateStore) (peers : List PeerId) : State :=
  let (actor, messages) := s.actor.emitDedupedRoomSnapshots serialize store peers
  ⟨actor, s.emitted ++ messages⟩

/-- A connection from its start on, round by round. -/
def system : Machine State (RoomStateStore × PeerId) where
  Init s := s.actor.lastRoomsResp = .empty ∧ s.emitted = []
  step s round := some (check serialize s round.1 round.2)

/-- The answers that the cache retains were the last about their peers. -/
structure Exact (s : State) : Prop where
  wellFormed : s.actor.lastRoomsResp.WellFormed
  emitted : ∀ peer response, s.actor.lastRoomsResp.remembered peer = some response →
    ∃ frame ∈ lastEmitted s.emitted peer, serialize frame = response

variable {serialize} {s : State}

/-- A call takes its peers one after the other. -/
theorem emit_eq_foldl (s : State) (store : RoomStateStore) (peers : List PeerId) :
    emit serialize s store peers =
      peers.foldl (fun s targetPeer => check serialize s store targetPeer) s := by
  induction peers generalizing s with
  | nil =>
    rw [emit, ConnectionActor.emitDedupedRoomSnapshots]
    simp
  | cons targetPeer peers ih =>
    rw [List.foldl_cons, ← ih, emit, ConnectionActor.emitDedupedRoomSnapshots]
    simp [emit, check]

theorem lastEmitted_concat_self (emitted : List RoomsFrame) (frame : RoomsFrame) :
    lastEmitted (emitted ++ [frame]) frame.peer = some frame := by
  simp [lastEmitted]

theorem lastEmitted_concat_of_ne {emitted : List RoomsFrame} {frame : RoomsFrame} {peer : PeerId}
    (distinct : frame.peer ≠ peer) :
    lastEmitted (emitted ++ [frame]) peer = lastEmitted emitted peer := by
  simp [lastEmitted, distinct]

theorem exact_check (isExact : Exact serialize s) (store : RoomStateStore) (targetPeer : PeerId) :
    Exact serialize (check serialize s store targetPeer) := by
  obtain ⟨wellFormed, emitted⟩ := isExact
  obtain ⟨wellFormed', same⟩ := RoomsDedupCache.isUnchanged_spec wellFormed targetPeer
    (serialize ⟨targetPeer, store.roomsOf targetPeer⟩)
  rw [check, ConnectionActor.emitRoomSnapshot]
  dsimp only
  split
  · -- A suppressed answer leaves the last emitted frames as they are.
    refine ⟨wellFormed', ?_⟩
    intro peer response found
    rw [List.append_nil]
    exact emitted peer response ((same peer).symm.trans found)
  · obtain ⟨remembered, kept⟩ := RoomsDedupCache.remember_spec wellFormed' targetPeer
      (serialize ⟨targetPeer, store.roomsOf targetPeer⟩)
    refine ⟨remembered, ?_⟩
    intro peer response found
    rcases kept peer response found with ⟨rfl, rfl⟩ | ⟨distinct, before⟩
    · exact ⟨_, lastEmitted_concat_self s.emitted ⟨peer, store.roomsOf peer⟩, rfl⟩
    · rw [lastEmitted_concat_of_ne (Ne.symm distinct)]
      exact emitted peer response ((same peer).symm.trans before)

theorem exact_of_reachable (reached : (system serialize).Reachable s) : Exact serialize s := by
  refine reached.invariant ?_ ?_
  · rintro s ⟨fresh, none⟩
    refine ⟨?_, ?_⟩
    · rw [fresh]
      exact RoomsDedupCache.wellFormed_empty
    · intro peer response found
      rw [fresh] at found
      cases found
  · intro s round s' isExact _ taken
    obtain rfl : check serialize s round.1 round.2 = s' := Option.some.inj taken
    exact exact_check isExact round.1 round.2

theorem reachable_emit (reached : (system serialize).Reachable s) (store : RoomStateStore)
    (peers : List PeerId) : (system serialize).Reachable (emit serialize s store peers) := by
  rw [emit_eq_foldl]
  induction peers generalizing s with
  | nil => exact reached
  | cons targetPeer peers ih =>
    refine ih ?_
    obtain ⟨start, initial, run⟩ := reached
    exact ⟨start, initial, run.tail (a := (store, targetPeer)) trivial rfl⟩

end RoomsDedup

end OutpostPi.Relay
