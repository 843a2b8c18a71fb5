import OutpostPi.App.EpkEncoding
import OutpostPi.App.MeshApply
import OutpostPi.Lib.FirstMinimum

/-!
# What an undisturbed mesh apply leaves

`_replaceLocalCacheWith` writes one record for each listed peer that differs from the record of the
blob, under the spelling of the record that survives, and then erases the metadata of peers that are
not listed and of spellings that are shadowed.

After a whole apply the stored peers are those of the blob and those with a channel
(`peers_after`), a record without a channel is the only one of its peer (`metadata_alone`), and
every channel is where it was (`channel_after`). This is what the machine of the apply does when
nothing else moves (`undisturbed_apply`).
-/

set_option autoImplicit false

namespace OutpostPi.App.MeshApply

open OutpostPi.Lib

/-! ## The writes of an apply -/

/-- What is saved for a member, if its record needs a write. -/
def savedRecord (peers : List PeerRecord) (member : MeshMember) : Option PeerRecord :=
  let previous := (survivorsOf toStandardB64 toAppEpk peers).1.lookup
    (toStandardB64 member.remoteEpk)
  let record := recordOf toAppEpk previous member
  if previous.any fun stored => peerEqualsForMesh stored record then none else some record

/-- The key of a peer that is removed. -/
def removedKey (peers : List PeerRecord) (members : List MeshMember) (peer : PeerRecord) :
    Option String :=
  let keep := members.map fun member => toStandardB64 member.remoteEpk
  if peer.remoteEpk ∈ (survivorsOf toStandardB64 toAppEpk peers).2 ∨
      toStandardB64 peer.remoteEpk ∉ keep then
    if peer.channel.isNone then some peer.remoteEpk else none
  else none

/-- The writes of an apply that nothing interrupts, from the peers that it has listed. -/
def replaceWrites (peers : List PeerRecord) (members : List MeshMember) : List MeshWrite :=
  members.filterMap (memberWrite toStandardB64 toAppEpk peers) ++
    peers.filterMap (peerRemoval toStandardB64 toAppEpk peers members)

def replaceLocalCacheWith (peers : List PeerRecord) (members : List MeshMember)
    (roster : Roster) : Roster :=
  (replaceWrites peers members).foldl MeshWrite.run roster

/-- A member is written exactly when it has a record to save. -/
theorem memberWrite_eq (peers : List PeerRecord) (member : MeshMember) :
    memberWrite toStandardB64 toAppEpk peers member =
      (savedRecord peers member).map .saveMeshPeerMetadata := by
  simp only [memberWrite, savedRecord]
  split <;> rfl

/-- A peer is removed exactly when it has a key to delete. -/
theorem peerRemoval_eq (peers : List PeerRecord) (members : List MeshMember) (peer : PeerRecord) :
    peerRemoval toStandardB64 toAppEpk peers members peer =
      (removedKey peers members peer).map .deletePeerSilent := by
  simp only [peerRemoval, removedKey]
  split
  · split <;> rfl
  · rfl

/-- All the saves come before all the removals. -/
theorem replaceWrites_eq (peers : List PeerRecord) (members : List MeshMember) :
    replaceWrites peers members =
      (members.filterMap (savedRecord peers)).map .saveMeshPeerMetadata ++
        (peers.filterMap (removedKey peers members)).map .deletePeerSilent := by
  rw [replaceWrites, List.map_filterMap, List.map_filterMap]
  congr 2
  · exact funext (memberWrite_eq peers)
  · exact funext (peerRemoval_eq peers members)

/-! ## Lookups after the writes -/

/-- Of the records that are saved under a key the last one stays, with the channel from before. -/
theorem lookup_saves (roster : Roster) (records : List PeerRecord) (remoteEpk : String) :
    ((records.map MeshWrite.saveMeshPeerMetadata).foldl MeshWrite.run roster).lookup remoteEpk =
      match (records.filter fun record => record.remoteEpk = remoteEpk).getLast? with
      | none => roster.lookup remoteEpk
      | some record =>
        some { record with channel := (roster.lookup remoteEpk).bind PeerRecord.channel } := by
  induction records using List.reverseRecOn with
  | nil => rfl
  | append_singleton records record ih =>
    rw [List.map_append, List.foldl_append, List.map_singleton, List.foldl_cons, List.foldl_nil]
    by_cases own : record.remoteEpk = remoteEpk
    · have last : [record].filter (fun other => other.remoteEpk = remoteEpk) = [record] :=
        List.filter_cons_of_pos (decide_eq_true own)
      rw [List.filter_append, last, List.getLast?_concat]
      subst own
      rw [lookup_saveMeshPeerMetadata, ih]
      -- the channel is the same whatever was saved before
      cases (records.filter fun other => other.remoteEpk = record.remoteEpk).getLast? <;> rfl
    · have other : [record].filter (fun other => other.remoteEpk = remoteEpk) = [] :=
        List.filter_cons_of_neg (by simpa using own)
      rw [List.filter_append, other, List.append_nil, ← ih]
      exact lookup_meshRun_of_ne (Ne.symm own)

/-- A row of removals takes away its own keys and nothing else. -/
theorem lookup_removals (roster : Roster) (keys : List String) (remoteEpk : String) :
    ((keys.map MeshWrite.deletePeerSilent).foldl MeshWrite.run roster).lookup remoteEpk =
      if remoteEpk ∈ keys then none else roster.lookup remoteEpk := by
  induction keys using List.reverseRecOn with
  | nil => rfl
  | append_singleton keys key ih =>
    rw [List.map_append, List.foldl_append, List.map_singleton, List.foldl_cons, List.foldl_nil,
      MeshWrite.run]
    by_cases own : remoteEpk = key
    · subst own
      rw [AList.lookup_erase, if_pos (by simp)]
    · rw [AList.lookup_erase_ne own, ih]
      simp only [List.mem_append, List.mem_singleton, own, or_false]

/-- What one application leaves under a key: removed, last saved, or as before. -/
theorem lookup_replace (peers : List PeerRecord) (members : List MeshMember) (roster : Roster)
    (remoteEpk : String) :
    (replaceLocalCacheWith peers members roster).lookup remoteEpk =
      if remoteEpk ∈ peers.filterMap (removedKey peers members) then none
      else
        match ((members.filterMap (savedRecord peers)).filter
          fun record => record.remoteEpk = remoteEpk).getLast? with
        | none => roster.lookup remoteEpk
        | some record =>
          some { record with channel := (roster.lookup remoteEpk).bind PeerRecord.channel } := by
  rw [replaceLocalCacheWith, replaceWrites_eq, List.foldl_append, lookup_removals, lookup_saves]

/-! ## Survivors -/

/-- A record with a channel is kept before one without, and then the spelling of the app. -/
def keepRank (peer : PeerRecord) : Nat :=
  (if peer.channel.isSome then 0 else 2) + if peer.remoteEpk = toAppEpk peer.remoteEpk then 0 else 1

/-- A record without a channel never ranks above one that has it. -/
theorem two_le_keepRank {peer : PeerRecord} (bare : peer.channel = none) : 2 ≤ keepRank peer := by
  simp [keepRank, bare]

/-- A record with a channel ranks in the upper two. -/
theorem keepRank_le_one {peer : PeerRecord} {state : OwnerChannelState}
    (channel : peer.channel = some state) : keepRank peer ≤ 1 := by
  rw [keepRank, channel]
  simp only [Option.isSome_some, if_true]
  split <;> omega

/-- The survivor of two is the one of smaller rank, the first on a tie. -/
theorem preferSurvivor_eq (a b : PeerRecord) :
    preferSurvivor toAppEpk a b = if keepRank b < keepRank a then (b, a) else (a, b) := by
  have decided : preferSurvivor toAppEpk a b = (b, a) ∧ keepRank b < keepRank a ∨
      preferSurvivor toAppEpk a b = (a, b) ∧ ¬keepRank b < keepRank a := by
    simp only [preferSurvivor, keepRank]
    generalize toAppEpk a.remoteEpk = aSpelling, toAppEpk b.remoteEpk = bSpelling
    by_cases aHasChannel : a.channel.isSome = true <;>
      by_cases bHasChannel : b.channel.isSome = true <;>
        by_cases aCanonical : a.remoteEpk = aSpelling <;>
          by_cases bCanonical : b.remoteEpk = bSpelling <;>
            simp [aHasChannel, bHasChannel, aCanonical, bCanonical]
  rcases decided with ⟨chosen, lower⟩ | ⟨chosen, notLower⟩
  · rw [chosen, if_pos lower]
  · rw [chosen, if_neg notLower]

/-- The records of one peer. -/
def recordsOf (peers : List PeerRecord) (key : String) : List PeerRecord :=
  peers.filter fun peer => toStandardB64 peer.remoteEpk = key

variable {key : String}

/-- The records of a key are those whose key has that standard form. -/
theorem mem_recordsOf {peers : List PeerRecord} {peer : PeerRecord} :
    peer ∈ recordsOf peers key ↔ peer ∈ peers ∧ toStandardB64 peer.remoteEpk = key := by
  simp [recordsOf]

/-- The record of a peer that survives, if one is listed. -/
def survivorOf (peers : List PeerRecord) (key : String) : Option PeerRecord :=
  (recordsOf peers key).argmin keepRank

/-- A further record of the key comes last. -/
theorem recordsOf_concat_self (peers : List PeerRecord) (peer : PeerRecord) :
    recordsOf (peers ++ [peer]) (toStandardB64 peer.remoteEpk) =
      recordsOf peers (toStandardB64 peer.remoteEpk) ++ [peer] := by
  have last : recordsOf [peer] (toStandardB64 peer.remoteEpk) = [peer] :=
    List.filter_cons_of_pos (decide_eq_true rfl)
  rw [recordsOf, List.filter_append, ← recordsOf, ← recordsOf, last]

/-- A further record of another key changes nothing. -/
theorem recordsOf_concat_of_ne {peer : PeerRecord} (ne : toStandardB64 peer.remoteEpk ≠ key)
    (peers : List PeerRecord) : recordsOf (peers ++ [peer]) key = recordsOf peers key := by
  have other : recordsOf [peer] key = [] := List.filter_cons_of_neg (by simpa using ne)
  rw [recordsOf, List.filter_append, ← recordsOf, ← recordsOf, other, List.append_nil]

/-- One more record is compared with the survivor of its peer. -/
theorem survivorsOf_concat (peers : List PeerRecord) (peer : PeerRecord) :
    survivorsOf toStandardB64 toAppEpk (peers ++ [peer]) =
      match (survivorsOf toStandardB64 toAppEpk peers).1.lookup
        (toStandardB64 peer.remoteEpk) with
      | none =>
        ((survivorsOf toStandardB64 toAppEpk peers).1.insert (toStandardB64 peer.remoteEpk) peer,
          (survivorsOf toStandardB64 toAppEpk peers).2)
      | some previous =>
        if keepRank peer < keepRank previous then
          ((survivorsOf toStandardB64 toAppEpk peers).1.insert (toStandardB64 peer.remoteEpk) peer,
            previous.remoteEpk :: (survivorsOf toStandardB64 toAppEpk peers).2)
        else
          ((survivorsOf toStandardB64 toAppEpk peers).1.insert (toStandardB64 peer.remoteEpk)
            previous, peer.remoteEpk :: (survivorsOf toStandardB64 toAppEpk peers).2) := by
  rw [survivorsOf, List.foldl_append, List.foldl_cons, List.foldl_nil, ← survivorsOf]
  dsimp only
  cases (survivorsOf toStandardB64 toAppEpk peers).1.lookup (toStandardB64 peer.remoteEpk) with
  | none => rfl
  | some previous =>
    dsimp only
    rw [preferSurvivor_eq]
    split <;> rfl

/-- A further record of the key survives only if it ranks above the survivor. -/
theorem survivorOf_concat_self (peers : List PeerRecord) (peer : PeerRecord) :
    survivorOf (peers ++ [peer]) (toStandardB64 peer.remoteEpk) =
      match survivorOf peers (toStandardB64 peer.remoteEpk) with
      | none => some peer
      | some previous => if keepRank peer < keepRank previous then some peer else some previous := by
  rw [survivorOf, recordsOf_concat_self, List.argmin_concat, ← survivorOf]
  cases survivorOf peers (toStandardB64 peer.remoteEpk) <;> rfl

/-- A further record of another key leaves the survivor. -/
theorem survivorOf_concat_of_ne {peer : PeerRecord} (ne : toStandardB64 peer.remoteEpk ≠ key)
    (peers : List PeerRecord) : survivorOf (peers ++ [peer]) key = survivorOf peers key := by
  rw [survivorOf, recordsOf_concat_of_ne ne, survivorOf]

/-- The survivor is one of the records of its key. -/
theorem mem_of_survivorOf {peers : List PeerRecord} {peer : PeerRecord}
    (survives : survivorOf peers key = some peer) :
    peer ∈ peers ∧ toStandardB64 peer.remoteEpk = key :=
  mem_recordsOf.mp (List.argmin_mem survives)

/-- A peer that has a record has one that survives. -/
theorem exists_survivorOf {peers : List PeerRecord} {peer : PeerRecord} (mem : peer ∈ peers) :
    ∃ survivor, survivorOf peers (toStandardB64 peer.remoteEpk) = some survivor := by
  cases survives : survivorOf peers (toStandardB64 peer.remoteEpk) with
  | some survivor => exact ⟨survivor, rfl⟩
  | none =>
    have own := mem_recordsOf.mpr ⟨mem, rfl⟩
    rw [List.argmin_eq_none.mp survives] at own
    cases own

/-- The map that the loop builds holds the survivor of each key. -/
theorem lookup_survivors (peers : List PeerRecord) (key : String) :
    (survivorsOf toStandardB64 toAppEpk peers).1.lookup key = survivorOf peers key := by
  induction peers using List.reverseRecOn generalizing key with
  | nil => rfl
  | append_singleton peers peer ih =>
    rw [survivorsOf_concat, ih]
    by_cases own : toStandardB64 peer.remoteEpk = key
    · subst own
      rw [survivorOf_concat_self]
      cases survivorOf peers (toStandardB64 peer.remoteEpk) with
      | none => exact AList.lookup_insert _
      | some previous =>
        dsimp only
        split
        · exact AList.lookup_insert _
        · exact AList.lookup_insert _
    · rw [survivorOf_concat_of_ne own, ← ih key]
      cases survivorOf peers (toStandardB64 peer.remoteEpk) with
      | none => exact AList.lookup_insert_ne (Ne.symm own)
      | some previous =>
        dsimp only
        split
        · exact AList.lookup_insert_ne (Ne.symm own)
        · exact AList.lookup_insert_ne (Ne.symm own)

/-- The record is listed, and it is not the one that survives. -/
def Shadowed (peers : List PeerRecord) (peer : PeerRecord) : Prop :=
  peer ∈ peers ∧ survivorOf peers (toStandardB64 peer.remoteEpk) ≠ some peer

/-- One more record is shadowed by the survivor, or it shadows the one that survived so far. -/
theorem shadowed_concat {peers : List PeerRecord} {peer : PeerRecord} (new : peer ∉ peers)
    (other : PeerRecord) :
    Shadowed (peers ++ [peer]) other ↔ Shadowed peers other ∨
      ∃ previous, survivorOf peers (toStandardB64 peer.remoteEpk) = some previous ∧
        other = if keepRank peer < keepRank previous then previous else peer := by
  have here := survivorOf_concat_self peers peer
  simp only [Shadowed, List.mem_append, List.mem_singleton]
  by_cases own : toStandardB64 peer.remoteEpk = toStandardB64 other.remoteEpk
  · rw [← own, here]
    cases survives : survivorOf peers (toStandardB64 peer.remoteEpk) with
    | none =>
      -- the peer had no record, so the other record is the new one
      have notBefore : other ∉ peers := by
        intro mem
        obtain ⟨survivor, found⟩ := exists_survivorOf mem
        rw [← own, survives] at found
        cases found
      simp only [notBefore, false_or, false_and, reduceCtorEq, exists_false, or_self, iff_false,
        not_and, ne_eq, not_not]
      rintro rfl
      rfl
    | some previous =>
      have before := (mem_of_survivorOf survives).1
      dsimp only
      split
      · next lower =>
        constructor
        · rintro ⟨mem | rfl, differs⟩
          · by_cases same : other = previous
            · exact .inr ⟨previous, rfl, same.trans (if_pos lower).symm⟩
            · exact .inl ⟨mem, fun eq => same (Option.some.inj eq).symm⟩
          · exact absurd rfl differs
        · rintro (⟨mem, -⟩ | ⟨_, ⟨⟩, same⟩)
          · refine ⟨.inl mem, ?_⟩
            rintro ⟨⟩
            exact new mem
          · rw [if_pos lower] at same
            subst same
            refine ⟨.inl before, ?_⟩
            rintro ⟨⟩
            exact new before
      · next notLower =>
        constructor
        · rintro ⟨mem | rfl, differs⟩
          · exact .inl ⟨mem, differs⟩
          · exact .inr ⟨previous, rfl, (if_neg notLower).symm⟩
        · rintro (⟨mem, differs⟩ | ⟨_, ⟨⟩, same⟩)
          · exact ⟨.inl mem, differs⟩
          · rw [if_neg notLower] at same
            subst same
            refine ⟨.inr rfl, ?_⟩
            rintro ⟨⟩
            exact new before
  · rw [survivorOf_concat_of_ne own]
    constructor
    · rintro ⟨mem | rfl, differs⟩
      · exact .inl ⟨mem, differs⟩
      · exact absurd rfl own
    · rintro (⟨mem, differs⟩ | ⟨previous, survives, same⟩)
      · exact ⟨.inl mem, differs⟩
      · -- whichever of the two it is has the other key
        split at same
        · rw [same, (mem_of_survivorOf survives).2] at own
          exact absurd rfl own
        · rw [same] at own
          exact absurd rfl own

/-- The records that are shadowed are those that do not survive. -/
theorem mem_shadowed {peers : List PeerRecord} (distinct : (peers.map PeerRecord.remoteEpk).Nodup)
    (remoteEpk : String) :
    remoteEpk ∈ (survivorsOf toStandardB64 toAppEpk peers).2 ↔
      ∃ peer, Shadowed peers peer ∧ peer.remoteEpk = remoteEpk := by
  induction peers using List.reverseRecOn with
  | nil => simp [survivorsOf, Shadowed]
  | append_singleton peers peer ih =>
    rw [List.map_append, List.map_singleton, List.nodup_append] at distinct
    obtain ⟨distinct, -, apart⟩ := distinct
    have new : peer ∉ peers := fun mem =>
      apart _ (List.mem_map_of_mem mem) _ (List.mem_singleton.mpr rfl) rfl
    simp only [shadowed_concat new, or_and_right, exists_or, ← ih distinct]
    rw [survivorsOf_concat, lookup_survivors]
    cases survivorOf peers (toStandardB64 peer.remoteEpk) with
    | none => simp
    | some previous =>
      dsimp only
      split
      · next lower => simp [lower, or_comm, eq_comm]
      · next notLower => simp [notLower, or_comm, eq_comm]

/-! ## Saves and removals -/

/-- A member is saved unless the survivor of its key already reads the same. -/
theorem savedRecord_eq (peers : List PeerRecord) (member : MeshMember) :
    savedRecord peers member =
      if (survivorOf peers (toStandardB64 member.remoteEpk)).any (peerEqualsForMesh ·
          (recordOf toAppEpk (survivorOf peers (toStandardB64 member.remoteEpk)) member)) then none
      else some (recordOf toAppEpk (survivorOf peers (toStandardB64 member.remoteEpk)) member) := by
  simp only [savedRecord, lookup_survivors]

variable {member : MeshMember} {record : PeerRecord}

/-- What is saved is the record of a member, and differs from the record that survives. -/
theorem savedRecord_some {peers : List PeerRecord}
    (saved : savedRecord peers member = some record) :
    record = recordOf toAppEpk (survivorOf peers (toStandardB64 member.remoteEpk)) member ∧
      ∀ survivor, survivorOf peers (toStandardB64 member.remoteEpk) = some survivor →
        peerEqualsForMesh survivor record = false := by
  rw [savedRecord_eq] at saved
  split at saved
  · cases saved
  · next differs =>
    cases saved
    refine ⟨rfl, ?_⟩
    intro survivor survives
    rw [survives] at differs ⊢
    simpa using differs

/-- A member that needs no write has a record that survives and says the same. -/
theorem savedRecord_none {peers : List PeerRecord} (skipped : savedRecord peers member = none) :
    ∃ survivor, survivorOf peers (toStandardB64 member.remoteEpk) = some survivor ∧
      peerEqualsForMesh survivor (recordOf toAppEpk (some survivor) member) = true := by
  rw [savedRecord_eq] at skipped
  split at skipped
  · next same =>
    obtain ⟨survivor, survives, equal⟩ := (Option.any_eq_true _ _).mp same
    rw [survives] at equal
    exact ⟨survivor, survives, equal⟩
  · cases skipped

/-- A member is saved under a spelling of its own key. -/
theorem key_recordOf (peers : List PeerRecord) (member : MeshMember) :
    toStandardB64 (recordOf toAppEpk (survivorOf peers (toStandardB64 member.remoteEpk))
      member).remoteEpk = toStandardB64 member.remoteEpk := by
  cases survives : survivorOf peers (toStandardB64 member.remoteEpk) with
  | none => exact toStandardB64_toAppEpk member.remoteEpk
  | some survivor => exact (mem_of_survivorOf survives).2

/-- The peers are those that are stored, each under its own key, in some order. -/
structure Listing (roster : Roster) (peers : List PeerRecord) : Prop where
  keyed : ∀ remoteEpk peer, roster.lookup remoteEpk = some peer → peer.remoteEpk = remoteEpk
  stored : ∀ peer, peer ∈ peers ↔ roster.lookup peer.remoteEpk = some peer
  distinct : (peers.map PeerRecord.remoteEpk).Nodup

/-- The record survives, and the blob lists its peer. -/
def Backed (peers : List PeerRecord) (members : List MeshMember) (peer : PeerRecord) : Prop :=
  survivorOf peers (toStandardB64 peer.remoteEpk) = some peer ∧
    ∃ member ∈ members, toStandardB64 member.remoteEpk = toStandardB64 peer.remoteEpk

section OneApply

variable {roster : Roster} {peers : List PeerRecord} {members : List MeshMember}
  {remoteEpk : String} {peer after : PeerRecord}

/-- A stored record is among the listed ones. -/
theorem Listing.mem (listed : Listing roster peers) (stored : roster.lookup remoteEpk = some peer) :
    peer ∈ peers := by
  rw [listed.stored, listed.keyed remoteEpk peer stored]
  exact stored

/-- A record without a channel is removed unless it is backed. -/
theorem mem_removed (listed : Listing roster peers) :
    remoteEpk ∈ peers.filterMap (removedKey peers members) ↔
      ∃ peer, roster.lookup remoteEpk = some peer ∧ peer.channel = none ∧
        ¬ Backed peers members peer := by
  have due {peer : PeerRecord} (mem : peer ∈ peers) :
      (peer.remoteEpk ∈ (survivorsOf toStandardB64 toAppEpk peers).2 ∨ toStandardB64 peer.remoteEpk ∉
        members.map fun member => toStandardB64 member.remoteEpk) ↔ ¬ Backed peers members peer := by
    rw [mem_shadowed listed.distinct, Backed, not_and_or, List.mem_map]
    refine or_congr ?_ Iff.rfl
    constructor
    · rintro ⟨other, ⟨found, shadowed⟩, own⟩
      rw [listed.stored, own, (listed.stored peer).mp mem] at found
      cases found
      exact shadowed
    · intro shadowed
      exact ⟨peer, ⟨mem, shadowed⟩, rfl⟩
  rw [List.mem_filterMap]
  constructor
  · rintro ⟨peer, mem, removed⟩
    simp only [removedKey] at removed
    split at removed
    · next unbacked =>
      obtain ⟨bare, rfl⟩ := Machine.of_guard removed
      exact ⟨peer, (listed.stored peer).mp mem, Option.isNone_iff_eq_none.mp bare,
        (due mem).mp unbacked⟩
    · cases removed
  · rintro ⟨peer, stored, bare, unbacked⟩
    have mem := listed.mem stored
    refine ⟨peer, mem, ?_⟩
    rw [removedKey, if_pos ((due mem).mpr unbacked), bare]
    exact congrArg some (listed.keyed remoteEpk peer stored)

/-- The record that is saved last under a key. -/
def lastSaved (peers : List PeerRecord) (members : List MeshMember) (remoteEpk : String) :
    Option PeerRecord :=
  ((members.filterMap (savedRecord peers)).filter fun record =>
    record.remoteEpk = remoteEpk).getLast?

/-- The last record saved under a key is that of a member. -/
theorem lastSaved_some (last : lastSaved peers members remoteEpk = some record) :
    record.remoteEpk = remoteEpk ∧ ∃ member ∈ members, savedRecord peers member = some record := by
  obtain ⟨mem, own⟩ := List.mem_filter.mp (List.mem_of_getLast? last)
  obtain ⟨member, listed, saved⟩ := List.mem_filterMap.mp mem
  exact ⟨of_decide_eq_true own, member, listed, saved⟩

/-- A key under which a member was saved has a last saved record. -/
theorem exists_lastSaved (mem : member ∈ members) (saved : savedRecord peers member = some record) :
    ∃ last, lastSaved peers members record.remoteEpk = some last := by
  cases last : lastSaved peers members record.remoteEpk with
  | some found => exact ⟨found, rfl⟩
  | none =>
    have own : record ∈ (members.filterMap (savedRecord peers)).filter fun other =>
        other.remoteEpk = record.remoteEpk :=
      List.mem_filter.mpr ⟨List.mem_filterMap.mpr ⟨member, mem, saved⟩, decide_eq_true rfl⟩
    rw [List.getLast?_eq_none_iff.mp last] at own
    cases own

/-- What is stored under a key where nothing is removed. -/
theorem lookup_unremoved (kept : remoteEpk ∉ peers.filterMap (removedKey peers members)) :
    (replaceLocalCacheWith peers members roster).lookup remoteEpk =
      match lastSaved peers members remoteEpk with
      | none => roster.lookup remoteEpk
      | some record =>
        some { record with channel := (roster.lookup remoteEpk).bind PeerRecord.channel } := by
  rw [lookup_replace, if_neg kept, lastSaved]

/-- A record that may stay is there afterwards, with its channel. -/
theorem stored_after (listed : Listing roster peers) (members : List MeshMember)
    (stored : roster.lookup remoteEpk = some peer)
    (stays : peer.channel = none → Backed peers members peer) :
    ∃ after, (replaceLocalCacheWith peers members roster).lookup remoteEpk = some after ∧
      after.channel = peer.channel := by
  have kept : remoteEpk ∉ peers.filterMap (removedKey peers members) := by
    rw [mem_removed listed]
    rintro ⟨removed, found, bare, unbacked⟩
    cases stored.symm.trans found
    exact unbacked (stays bare)
  rw [lookup_unremoved kept, stored]
  cases lastSaved peers members remoteEpk with
  | none => exact ⟨peer, rfl, rfl⟩
  | some record => exact ⟨_, rfl, rfl⟩

/-- A member whose peer has no record is there afterwards, without a channel. -/
theorem hydrated_after (listed : Listing roster peers) (mem : member ∈ members)
    (unknown : survivorOf peers (toStandardB64 member.remoteEpk) = none) :
    ∃ after, (replaceLocalCacheWith peers members roster).lookup (toAppEpk member.remoteEpk) =
      some after ∧ after.channel = none := by
  have absent : roster.lookup (toAppEpk member.remoteEpk) = none := by
    cases stored : roster.lookup (toAppEpk member.remoteEpk) with
    | none => rfl
    | some peer =>
      obtain ⟨survivor, survives⟩ := exists_survivorOf (listed.mem stored)
      rw [listed.keyed _ _ stored, toStandardB64_toAppEpk, unknown] at survives
      cases survives
  have kept : toAppEpk member.remoteEpk ∉ peers.filterMap (removedKey peers members) := by
    rw [mem_removed listed]
    rintro ⟨removed, found, -⟩
    cases absent.symm.trans found
  have saved : savedRecord peers member = some (recordOf toAppEpk none member) := by
    rw [savedRecord_eq, unknown]
    rfl
  obtain ⟨last, found⟩ := exists_lastSaved mem saved
  change lastSaved peers members (toAppEpk member.remoteEpk) = some last at found
  rw [lookup_unremoved kept, found, absent]
  exact ⟨_, rfl, rfl⟩

/-- What is stored afterwards was stored before and may stay, or it is new. -/
theorem before_of_after (listed : Listing roster peers)
    (found : (replaceLocalCacheWith peers members roster).lookup remoteEpk = some after) :
    (∃ peer, roster.lookup remoteEpk = some peer ∧ after.channel = peer.channel ∧
      (peer.channel = none → Backed peers members peer)) ∨
    roster.lookup remoteEpk = none ∧ after.channel = none ∧
      survivorOf peers (toStandardB64 remoteEpk) = none ∧
        ∃ member ∈ members, remoteEpk = toAppEpk member.remoteEpk := by
  by_cases removed : remoteEpk ∈ peers.filterMap (removedKey peers members)
  · rw [lookup_replace, if_pos removed] at found
    cases found
  rw [lookup_unremoved removed] at found
  rw [mem_removed listed] at removed
  cases stored : roster.lookup remoteEpk with
  | some peer =>
    refine .inl ⟨peer, rfl, ?_, ?_⟩
    · rw [stored] at found
      cases last : lastSaved peers members remoteEpk with
      | none =>
        rw [last] at found
        cases found
        rfl
      | some record =>
        rw [last] at found
        cases found
        rfl
    · intro bare
      by_contra unbacked
      exact removed ⟨peer, stored, bare, unbacked⟩
  | none =>
    rw [stored] at found
    cases last : lastSaved peers members remoteEpk with
    | none =>
      rw [last] at found
      cases found
    | some record =>
      rw [last] at found
      cases found
      obtain ⟨own, member, mem, saved⟩ := lastSaved_some last
      obtain ⟨rfl, -⟩ := savedRecord_some saved
      have key := key_recordOf peers member
      rw [own] at key
      have unknown : survivorOf peers (toStandardB64 member.remoteEpk) = none := by
        cases survives : survivorOf peers (toStandardB64 member.remoteEpk) with
        | none => rfl
        | some survivor =>
          -- a survivor is stored under the spelling of the save
          rw [survives] at own
          have here := (listed.stored survivor).mp (mem_of_survivorOf survives).1
          rw [show survivor.remoteEpk = remoteEpk from own, stored] at here
          cases here
      rw [unknown] at own
      refine .inr ⟨rfl, rfl, ?_, member, mem, own.symm⟩
      rw [key]
      exact unknown

/-! ## What is left -/

/-- The peers that have a record. -/
def Present (roster : Roster) (key : String) : Prop :=
  ∃ remoteEpk peer, roster.lookup remoteEpk = some peer ∧ toStandardB64 remoteEpk = key

/-- The peers afterwards are those of the blob, and those that had a channel. -/
theorem peers_after (listed : Listing roster peers) (members : List MeshMember) (key : String) :
    Present (replaceLocalCacheWith peers members roster) key ↔
      (∃ member ∈ members, toStandardB64 member.remoteEpk = key) ∨
        ∃ remoteEpk peer, roster.lookup remoteEpk = some peer ∧ peer.channel.isSome = true ∧
          toStandardB64 remoteEpk = key := by
  constructor
  · rintro ⟨remoteEpk, after, found, rfl⟩
    rcases before_of_after listed found with
      ⟨peer, stored, -, stays⟩ | ⟨-, -, -, member, mem, rfl⟩
    · cases channel : peer.channel with
      | none =>
        obtain ⟨-, member, mem, same⟩ := stays channel
        rw [listed.keyed remoteEpk peer stored] at same
        exact .inl ⟨member, mem, same⟩
      | some state => exact .inr ⟨remoteEpk, peer, stored, Option.isSome_iff_exists.mpr ⟨_, channel⟩, rfl⟩
    · exact .inl ⟨member, mem, (toStandardB64_toAppEpk member.remoteEpk).symm⟩
  · rintro (⟨member, mem, rfl⟩ | ⟨remoteEpk, peer, stored, channel, rfl⟩)
    · cases survives : survivorOf peers (toStandardB64 member.remoteEpk) with
      | none =>
        obtain ⟨after, found, -⟩ := hydrated_after listed mem survives
        exact ⟨_, after, found, toStandardB64_toAppEpk member.remoteEpk⟩
      | some survivor =>
        obtain ⟨here, key⟩ := mem_of_survivorOf survives
        obtain ⟨after, found, -⟩ := stored_after listed members
          ((listed.stored survivor).mp here) fun _ =>
            ⟨by rw [key]; exact survives, member, mem, key.symm⟩
        exact ⟨_, after, found, key⟩
    · obtain ⟨after, found, -⟩ := stored_after listed members stored fun bare => by
        rw [bare] at channel
        cases channel
      exact ⟨remoteEpk, after, found, rfl⟩

/-- A record without a channel is the only one of its peer. -/
theorem metadata_alone (listed : Listing roster peers) {other : String}
    (found : (replaceLocalCacheWith peers members roster).lookup remoteEpk = some after)
    (bare : after.channel = none)
    (beside : (replaceLocalCacheWith peers members roster).lookup other = some record)
    (same : toStandardB64 other = toStandardB64 remoteEpk) : other = remoteEpk := by
  rcases before_of_after listed found with
    ⟨peer, stored, channel, stays⟩ | ⟨-, -, unknown, member, -, own⟩
  · have survives := (stays (channel ▸ bare)).1
    rw [listed.keyed remoteEpk peer stored] at survives
    rcases before_of_after listed beside with
      ⟨peer', stored', channel', stays'⟩ | ⟨-, -, unknown', -⟩
    · have key' : toStandardB64 peer'.remoteEpk = toStandardB64 remoteEpk := by
        rw [listed.keyed other peer' stored', same]
      cases bare' : peer'.channel with
      | none =>
        have survives' := (stays' bare').1
        rw [key', survives] at survives'
        cases survives'
        exact (listed.keyed other peer stored').symm.trans (listed.keyed remoteEpk peer stored)
      | some state =>
        -- a record with a channel would survive in place of this one
        have lower := List.le_of_mem_argmin
          (mem_recordsOf.mpr ⟨listed.mem stored', key'⟩) survives
        have high := two_le_keepRank (channel ▸ bare)
        have low := keepRank_le_one bare'
        omega
    · rw [same, survives] at unknown'
      cases unknown'
  · rcases before_of_after listed beside with
      ⟨peer', stored', -⟩ | ⟨-, -, -, member', -, own'⟩
    · obtain ⟨survivor, survives⟩ := exists_survivorOf (listed.mem stored')
      rw [listed.keyed other peer' stored', same, unknown] at survives
      cases survives
    · rw [own, own', toStandardB64_toAppEpk, toStandardB64_toAppEpk] at same
      rw [own, own', toAppEpk_eq_iff]
      exact same

/-- A record with a channel keeps its key and its channel. -/
theorem channel_after (listed : Listing roster peers) (members : List MeshMember)
    {state : OwnerChannelState} (stored : roster.lookup remoteEpk = some peer)
    (channel : peer.channel = some state) :
    ∃ after, (replaceLocalCacheWith peers members roster).lookup remoteEpk = some after ∧
      after.channel = some state := by
  obtain ⟨after, found, kept⟩ := stored_after listed members stored fun bare => by
    rw [channel] at bare
    cases bare
  exact ⟨after, found, kept.trans channel⟩

end OneApply

/-- The entries of a roster list it, when each record is under its own key. -/
theorem listing_entries {roster : Roster}
    (own : ∀ entry ∈ roster.entries, entry.2.remoteEpk = entry.1) :
    Listing roster (roster.entries.map Sigma.snd) := by
  refine ⟨fun remoteEpk peer found => own ⟨remoteEpk, peer⟩ (AList.mem_lookup_iff.mp found), ?_, ?_⟩
  · intro peer
    rw [List.mem_map]
    constructor
    · rintro ⟨entry, mem, rfl⟩
      rw [own entry mem]
      exact AList.mem_lookup_iff.mpr mem
    · intro stored
      exact ⟨_, AList.mem_lookup_iff.mp stored, rfl⟩
  · have keys : (roster.entries.map Sigma.snd).map PeerRecord.remoteEpk =
        roster.entries.map Sigma.fst := by
      rw [List.map_map]
      exact List.map_congr_left own
    rw [keys]
    exact roster.nodupKeys

/-! ## Runs of the machine -/

section Undisturbed

variable {w : World}

/-- Nothing but the apply and the queue moves. -/
def Undisturbed (_ : World) (label : Label) : Prop :=
  label = .runQueue ∨ label = .resumeApply

def Leads (w w' : World) : Prop :=
  (machine toStandardB64 toAppEpk).RunsTo Undisturbed w w'

/-- Resuming the application is one step of the world. -/
theorem leads_resume {w' : World}
    (resumed : w.resumeApply toStandardB64 toAppEpk = some w') : Leads w w' :=
  .head (.inr rfl) resumed (.refl _)

/-- A stage that goes on leads to the next stage. -/
theorem leads_onward {stage onward : ApplyStage} (current : w.Current)
    (resumed : (w.goTo stage).resumeApply toStandardB64 toAppEpk =
      some ((w.goTo stage).goOn onward)) : Leads (w.goTo stage) (w.goTo onward) := by
  rw [World.goOn, if_pos (show (w.goTo stage).Current from current)] at resumed
  exact leads_resume resumed

/-- With nothing queued, the last write has landed. -/
theorem World.isWritten_of_idle (idle : w.queue = []) : w.isWritten = true := by
  rw [isWritten, idle]
  rfl

/-- The world after a write. -/
def World.afterWrite (w : World) (write : MeshWrite) : World :=
  { w with roster := write.run w.roster }

/-- The queue runs the write that the apply waits for. -/
theorem leads_runQueue {write : MeshWrite} (idle : w.queue = []) (waiting : ApplyStage) :
    Leads (w.await write waiting) ((w.afterWrite write).goTo waiting) := by
  obtain ⟨roster, queue, mutationRevision, mutationPending, ownerCurrent, apply, committed⟩ := w
  cases idle
  exact .head (.inl rfl) rfl (.refl _)

/-- A loop of the apply does the writes of its items one after the other. -/
theorem leads_writes {α : Type} (stage waiting : List α → ApplyStage)
    (write : List MeshMember → α → Option MeshWrite)
    (begins : ∀ (v : World) item rest, (v.goTo (stage (item :: rest))).resumeApply toStandardB64
      toAppEpk = if v.Current then
        match write v.apply.blobMembers item with
        | some found => some (v.await found (waiting rest))
        | none => some (v.goTo (stage rest))
      else some (v.goTo (.finished false)))
    (onward : ∀ v : World, v.queue = [] → v.Current → ∀ rest,
      Leads (v.goTo (waiting rest)) (v.goTo (stage rest)))
    (items : List α) (idle : w.queue = []) (current : w.Current) :
    Leads (w.goTo (stage items)) (World.goTo
      ((items.filterMap (write w.apply.blobMembers)).foldl World.afterWrite w) (stage [])) := by
  induction items generalizing w with
  | nil => exact .refl _
  | cons item rest ih =>
    have first := begins w item rest
    rw [if_pos current] at first
    cases written : write w.apply.blobMembers item with
    | none =>
      rw [written] at first
      rw [List.filterMap_cons_none written]
      exact (leads_resume first).trans (ih idle current)
    | some found =>
      rw [written] at first
      rw [List.filterMap_cons_some written]
      exact (leads_resume first).trans ((leads_runQueue idle _).trans
        ((onward (w.afterWrite found) idle current rest).trans (ih idle current)))

/-- The members are saved one after another, as the fold says. -/
theorem leads_members (peers : List PeerRecord) (rest : List MeshMember) (idle : w.queue = [])
    (current : w.Current) :
    Leads (w.goTo (.members peers rest)) (World.goTo
      ((rest.filterMap (memberWrite toStandardB64 toAppEpk peers)).foldl World.afterWrite w)
      (.members peers [])) :=
  leads_writes (.members peers) (.savingMember peers)
    (fun _ => memberWrite toStandardB64 toAppEpk peers) (fun _ _ _ => rfl)
    (fun _ idle current _ => leads_onward current (if_pos (World.isWritten_of_idle idle)))
    rest idle current

/-- The rooms of a removed peer take another step. -/
theorem leads_records (peers rest : List PeerRecord) (idle : w.queue = []) (current : w.Current) :
    Leads (w.goTo (.records peers rest)) (World.goTo
      ((rest.filterMap (peerRemoval toStandardB64 toAppEpk peers w.apply.blobMembers)).foldl
        World.afterWrite w) (.records peers [])) :=
  leads_writes (.records peers) (.erasing peers) (peerRemoval toStandardB64 toAppEpk peers)
    (fun _ _ _ => rfl)
    (fun v idle current rest =>
      have rooms : Leads (v.goTo (.erasing peers rest)) (v.goTo (.deletingRooms peers rest)) :=
        leads_onward current (if_pos (World.isWritten_of_idle idle))
      rooms.trans (leads_onward current rfl)) rest idle current

/-- Writes change the roster and nothing else of the world. -/
theorem foldl_afterWrite (writes : List MeshWrite) (w : World) :
    writes.foldl World.afterWrite w =
      { w with roster := writes.foldl MeshWrite.run w.roster } := by
  induction writes generalizing w with
  | nil => rfl
  | cons write rest ih => exact ih (w.afterWrite write)

end Undisturbed

/-- An apply that nothing interrupts replaces the cache. -/
theorem undisturbed_apply {w : World} {before : Bool} (idle : w.queue = [])
    (rests : w.apply.stage = .finished before) (owner : w.ownerCurrent = true)
    (members : List MeshMember) (allowPendingMutation : Bool)
    (admitted : allowPendingMutation = true ∨ w.mutationPending = false) :
    ∃ begun w', (machine toStandardB64 toAppEpk).step w
        (.startApply members allowPendingMutation) = some begun ∧ Leads begun w' ∧
      w'.apply.stage = .finished true ∧
        w'.roster = replaceLocalCacheWith (w.roster.entries.map Sigma.snd) members w.roster := by
  obtain ⟨roster, queue, mutationRevision, mutationPending, ownerCurrent,
    ⟨blob, revision, allow, stage⟩, committed⟩ := w
  cases idle
  cases rests
  let peers := roster.entries.map Sigma.snd
  let begun : World := ⟨roster, [], mutationRevision, mutationPending, ownerCurrent,
    ⟨members, mutationRevision, allowPendingMutation, .listing⟩, []⟩
  have current : begun.Current := ⟨rfl, admitted, owner⟩
  have saved := leads_members peers members (w := begun) rfl current
  rw [foldl_afterWrite] at saved
  let between : World := { begun with
    roster := (members.filterMap (memberWrite toStandardB64 toAppEpk peers)).foldl MeshWrite.run
      begun.roster }
  have removed := leads_records peers peers (w := between) rfl current
  rw [foldl_afterWrite] at removed
  let after : World := { between with
    roster := (peers.filterMap (peerRemoval toStandardB64 toAppEpk peers members)).foldl
      MeshWrite.run between.roster }
  have listed : Leads begun (begun.goTo (.listed peers)) := leads_resume rfl
  have opened : Leads (begun.goTo (.listed peers)) (begun.goTo (.members peers members)) :=
    leads_onward current rfl
  have turned : Leads (between.goTo (.members peers [])) (between.goTo (.records peers peers)) :=
    leads_resume rfl
  have finished : Leads (after.goTo (.records peers [])) (after.goTo (.finished true)) :=
    leads_onward (show after.Current from current) rfl
  refine ⟨begun, after.goTo (.finished true), if_pos ⟨current, rfl⟩,
    listed.trans (opened.trans (saved.trans (turned.trans (removed.trans finished)))), rfl, ?_⟩
  rw [replaceLocalCacheWith, replaceWrites, List.foldl_append]
  rfl

end OutpostPi.App.MeshApply
