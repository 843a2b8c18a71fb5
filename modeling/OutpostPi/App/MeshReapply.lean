import OutpostPi.App.MeshReplace

/-!
# Applying one mesh blob again

An apply compares each member with the record that survived before it, and saves the member where
they differ. After it the record of each member is the one under which the member was saved
(`survivor_again`), so that members who agree need no other write (`replace_again`). Of members that
name one peer and differ, one differs from the record, and is written over it (`terms_of_again`).

With what a single apply leaves this is `replace_exact_iff_agree`.
-/

set_option autoImplicit false

namespace OutpostPi.App.MeshApply

open OutpostPi.Lib

section Again

variable {roster : Roster} {peers peers' : List PeerRecord} {members : List MeshMember}
  {remoteEpk key : String} {survivor after : PeerRecord}

/-- What the mesh says of a peer. -/
def MeshMember.terms (member : MeshMember) : String × String × Option String :=
  (member.relayUrl, member.pairedAt, member.nickname)

def PeerRecord.terms (peer : PeerRecord) : String × String × Option String :=
  (peer.relayUrl, peer.pairedAt, peer.nickname)

/-- Members that name one peer say the same of it. -/
def Agree (members : List MeshMember) : Prop :=
  ∀ member ∈ members, ∀ other ∈ members,
    toStandardB64 member.remoteEpk = toStandardB64 other.remoteEpk → member.terms = other.terms

variable {a b : PeerRecord}

theorem peerEqualsForMesh_iff :
    peerEqualsForMesh a b = true ↔ a.remoteEpk = b.remoteEpk ∧ a.terms = b.terms := by
  simp only [peerEqualsForMesh, Bool.and_eq_true, beq_iff_eq, PeerRecord.terms, Prod.mk.injEq,
    and_assoc]

variable {member : MeshMember}

/-- The record under which a member is saved says what the member says. -/
theorem terms_after (listed : Listing roster peers) (agree : Agree members)
    (mem : member ∈ members)
    (found : (replaceLocalCacheWith peers members roster).lookup (recordOf toAppEpk
      (survivorOf peers (toStandardB64 member.remoteEpk)) member).remoteEpk = some after) :
    after.terms = member.terms := by
  have kept : (recordOf toAppEpk (survivorOf peers (toStandardB64 member.remoteEpk))
      member).remoteEpk ∉ peers.filterMap (removedKey peers members) := by
    intro removed
    rw [lookup_replace, if_pos removed] at found
    cases found
  rw [lookup_unremoved kept] at found
  cases last : lastSaved peers members (recordOf toAppEpk
      (survivorOf peers (toStandardB64 member.remoteEpk)) member).remoteEpk with
  | some record =>
    rw [last] at found
    cases found
    obtain ⟨own, other, mem', saved⟩ := lastSaved_some last
    obtain ⟨rfl, -⟩ := savedRecord_some saved
    refine agree other mem' member mem ?_
    rw [← key_recordOf peers other, own, key_recordOf]
  | none =>
    rw [last] at found
    cases saved : savedRecord peers member with
    | some record =>
      obtain ⟨same, -⟩ := savedRecord_some saved
      obtain ⟨some_last, present⟩ := exists_lastSaved mem saved
      rw [same, last] at present
      cases present
    | none =>
      -- nothing is saved, so the survivor is still there
      obtain ⟨survivor, survives, equal⟩ := savedRecord_none saved
      rw [survives] at found
      have here := (listed.stored survivor).mp (mem_of_survivorOf survives).1
      cases here.symm.trans found
      exact (peerEqualsForMesh_iff.mp equal).2

/-- Of two records of one peer that have channels, neither spelled as the app spells the key, the
one that was listed first is listed first again. This is an assumption on the order in which the
secure store lists its entries, which the app neither chooses nor checks. -/
def SameOrder (peers peers' : List PeerRecord) : Prop :=
  ∀ a ∈ peers, ∀ b ∈ peers, ∀ a' ∈ peers', ∀ b' ∈ peers', a'.remoteEpk = a.remoteEpk →
    b'.remoteEpk = b.remoteEpk → toStandardB64 a.remoteEpk = toStandardB64 b.remoteEpk →
      keepRank a = 1 → keepRank b = 1 → [a, b].Sublist peers → [a', b'].Sublist peers'

theorem keepRank_congr (key : a.remoteEpk = b.remoteEpk) (channel : a.channel = b.channel) :
    keepRank a = keepRank b := by
  rw [keepRank, keepRank, key, channel]

theorem keepRank_eq_zero {peer : PeerRecord} (zero : keepRank peer = 0) :
    peer.remoteEpk = toAppEpk peer.remoteEpk := by
  by_contra other
  rw [keepRank, if_neg other] at zero
  omega

theorem Listing.nodup (listed : Listing roster peers) : peers.Nodup :=
  List.Nodup.of_map _ listed.distinct

theorem pair_sublist_recordsOf {key : String} (pair : [a, b].Sublist peers)
    (aKey : toStandardB64 a.remoteEpk = key) (bKey : toStandardB64 b.remoteEpk = key) :
    [a, b].Sublist (recordsOf peers key) := by
  have filtered := pair.filter fun record => decide (toStandardB64 record.remoteEpk = key)
  simpa [recordsOf, aKey, bKey] using filtered

/-- Two records of one peer do not both have the spelling of the app. -/
theorem canonical_unique (listed : Listing roster peers) (aMem : a ∈ peers) (bMem : b ∈ peers)
    (same : toStandardB64 a.remoteEpk = toStandardB64 b.remoteEpk) (aZero : keepRank a = 0)
    (bZero : keepRank b = 0) : a = b := by
  have keys : a.remoteEpk = b.remoteEpk := by
    rw [keepRank_eq_zero aZero, keepRank_eq_zero bZero, toAppEpk_eq_iff]
    exact same
  have twice := (listed.stored a).mp aMem
  rw [keys, (listed.stored b).mp bMem] at twice
  exact (Option.some.inj twice).symm

/-- Every record of a peer that had one was there before, with the same rank. -/
theorem record_before (listed : Listing roster peers)
    (relisted : Listing (replaceLocalCacheWith peers members roster) peers')
    (survives : survivorOf peers key = some survivor) {record : PeerRecord}
    (mem : record ∈ recordsOf peers' key) :
    ∃ peer ∈ recordsOf peers key,
      record.remoteEpk = peer.remoteEpk ∧ keepRank record = keepRank peer := by
  obtain ⟨mem', own⟩ := mem_recordsOf.mp mem
  rcases before_of_after listed ((relisted.stored record).mp mem') with
    ⟨peer, stored, same, -⟩ | ⟨-, -, unknown, -⟩
  · have keyed := listed.keyed _ _ stored
    exact ⟨peer, mem_recordsOf.mpr ⟨listed.mem stored, by rw [keyed]; exact own⟩, keyed.symm,
      keepRank_congr keyed.symm same⟩
  · rw [own, survives] at unknown
    cases unknown

/-- A record with a channel that survived survives again. -/
theorem channel_survives_again (listed : Listing roster peers)
    (relisted : Listing (replaceLocalCacheWith peers members roster) peers')
    (ordered : SameOrder peers peers') {state : OwnerChannelState}
    (survives : survivorOf peers key = some survivor) (channel : survivor.channel = some state)
    (found : (replaceLocalCacheWith peers members roster).lookup survivor.remoteEpk = some after)
    (kept : after.channel = some state) : survivorOf peers' key = some after := by
  obtain ⟨here, own⟩ := mem_of_survivorOf survives
  have keyed := relisted.keyed _ _ found
  have afterKey : toStandardB64 after.remoteEpk = key := by rw [keyed, own]
  have rank := keepRank_congr keyed (kept.trans channel.symm)
  refine argmin_of_pairs (relisted.nodup.filter _)
    (mem_recordsOf.mpr ⟨relisted.mem found, afterKey⟩) ?_ ?_
  · intro other otherMem
    obtain ⟨peer, peerMem, -, same⟩ := record_before listed relisted survives otherMem
    rw [rank, same]
    exact List.le_of_mem_argmin peerMem survives
  · intro other otherMem ne equal
    obtain ⟨peer, peerMem, sameKey, same⟩ := record_before listed relisted survives otherMem
    obtain ⟨otherHere, otherKey⟩ := mem_recordsOf.mp otherMem
    obtain ⟨peerHere, peerKey⟩ := mem_recordsOf.mp peerMem
    have ranks : keepRank peer = keepRank survivor := same.symm.trans (equal.trans rank)
    have ne' : peer ≠ survivor := by
      rintro rfl
      have twice := (relisted.stored other).mp otherHere
      rw [sameKey, found] at twice
      exact ne (Option.some.inj twice).symm
    -- both have channels, and only one of them could have the spelling of the app
    have low := keepRank_le_one channel
    have one : keepRank survivor = 1 := by
      by_contra notOne
      exact ne' (canonical_unique listed peerHere here (peerKey.trans own.symm) (by omega)
        (by omega))
    have pair := (pair_sublist_of_argmin survives peerMem ne' ranks).trans List.filter_sublist
    exact pair_sublist_recordsOf (ordered survivor here peer peerHere after (relisted.mem found)
      other otherHere keyed sameKey (own.trans peerKey.symm) one (ranks.trans one) pair)
      afterKey otherKey

/-- Afterwards the record of a member is the one under which the member is saved. -/
theorem survivor_again (listed : Listing roster peers)
    (relisted : Listing (replaceLocalCacheWith peers members roster) peers')
    (ordered : SameOrder peers peers') (mem : member ∈ members) {survivor' : PeerRecord}
    (survives' : survivorOf peers' (toStandardB64 member.remoteEpk) = some survivor') :
    survivor'.remoteEpk = (recordOf toAppEpk (survivorOf peers (toStandardB64 member.remoteEpk))
      member).remoteEpk := by
  obtain ⟨mem', key'⟩ := mem_of_survivorOf survives'
  have found' := (relisted.stored survivor').mp mem'
  cases survives : survivorOf peers (toStandardB64 member.remoteEpk) with
  | none =>
    rcases before_of_after listed found' with ⟨peer, stored, -⟩ | ⟨-, -, -, other, -, own⟩
    · obtain ⟨survivor, known⟩ := exists_survivorOf (listed.mem stored)
      rw [listed.keyed _ _ stored, key', survives] at known
      cases known
    · rw [own, toStandardB64_toAppEpk] at key'
      rw [own]
      exact toAppEpk_eq_iff.mpr key'
  | some survivor =>
    change survivor'.remoteEpk = survivor.remoteEpk
    obtain ⟨here, key⟩ := mem_of_survivorOf survives
    have stored := (listed.stored survivor).mp here
    cases channel : survivor.channel with
    | none =>
      obtain ⟨after, found, bare⟩ := stored_after listed members stored fun _ =>
        ⟨by rw [key]; exact survives, member, mem, key.symm⟩
      exact metadata_alone listed found (bare.trans channel) found' (key'.trans key.symm)
    | some state =>
      obtain ⟨after, found, kept⟩ := channel_after listed members stored channel
      have again := channel_survives_again listed relisted ordered survives channel found kept
      cases again.symm.trans survives'
      exact relisted.keyed _ _ found

/-- A member of a blob that has been applied needs no other write. -/
theorem savedRecord_again (listed : Listing roster peers)
    (relisted : Listing (replaceLocalCacheWith peers members roster) peers')
    (ordered : SameOrder peers peers') (agree : Agree members) (mem : member ∈ members) :
    savedRecord peers' member = none := by
  obtain ⟨remoteEpk, record, found, own⟩ :=
    (peers_after listed members (toStandardB64 member.remoteEpk)).mpr (.inl ⟨member, mem, rfl⟩)
  obtain ⟨survivor', survives'⟩ := exists_survivorOf (relisted.mem found)
  rw [relisted.keyed _ _ found, own] at survives'
  have here := (relisted.stored survivor').mp (mem_of_survivorOf survives').1
  have terms : survivor'.terms = member.terms := by
    refine terms_after listed agree mem ?_
    rw [← survivor_again listed relisted ordered mem survives']
    exact here
  have equal : peerEqualsForMesh survivor' (recordOf toAppEpk (some survivor') member) = true :=
    peerEqualsForMesh_iff.mpr ⟨rfl, terms⟩
  rw [savedRecord_eq, survives', Option.any_some, equal, if_pos rfl]

/-- No record that is left by an apply is due for removal. -/
theorem not_removed_again (listed : Listing roster peers)
    (relisted : Listing (replaceLocalCacheWith peers members roster) peers')
    (remoteEpk : String) : remoteEpk ∉ peers'.filterMap (removedKey peers' members) := by
  rw [mem_removed relisted]
  rintro ⟨record, found, bare, unbacked⟩
  have own := relisted.keyed _ _ found
  refine unbacked ⟨?_, ?_⟩
  · obtain ⟨survivor', survives'⟩ := exists_survivorOf (relisted.mem found)
    obtain ⟨here, key⟩ := mem_of_survivorOf survives'
    have stored := (relisted.stored survivor').mp here
    have alone := metadata_alone listed found bare stored (by rw [key, own])
    rw [alone, found] at stored
    cases stored
    exact survives'
  · rcases before_of_after listed found with ⟨peer, stored, same, stays⟩ | ⟨-, -, -, member, mem, rfl⟩
    · obtain ⟨-, member, mem, key⟩ := stays (same ▸ bare)
      exact ⟨member, mem, by rw [key, own, listed.keyed _ _ stored]⟩
    · exact ⟨member, mem, by rw [own, toStandardB64_toAppEpk]⟩

/-- Where members agree, another apply changes nothing. -/
theorem replace_again (listed : Listing roster peers)
    (relisted : Listing (replaceLocalCacheWith peers members roster) peers')
    (ordered : SameOrder peers peers') (agree : Agree members) (remoteEpk : String) :
    (replaceLocalCacheWith peers' members
      (replaceLocalCacheWith peers members roster)).lookup remoteEpk =
        (replaceLocalCacheWith peers members roster).lookup remoteEpk := by
  rw [lookup_unremoved (not_removed_again listed relisted remoteEpk)]
  cases last : lastSaved peers' members remoteEpk with
  | none => rfl
  | some record =>
    obtain ⟨-, member, mem, saved⟩ := lastSaved_some last
    rw [savedRecord_again listed relisted ordered agree mem] at saved
    cases saved

/-- A member that disagrees with the record that survives is written over it. -/
theorem terms_of_again (relisted : Listing roster peers) (mem : member ∈ members)
    (survives : survivorOf peers (toStandardB64 member.remoteEpk) = some survivor)
    (again : (replaceLocalCacheWith peers members roster).lookup survivor.remoteEpk =
      roster.lookup survivor.remoteEpk) : member.terms = survivor.terms := by
  by_contra differs
  obtain ⟨here, key⟩ := mem_of_survivorOf survives
  have stored := (relisted.stored survivor).mp here
  have unequal : peerEqualsForMesh survivor (recordOf toAppEpk (some survivor) member) ≠ true :=
    fun equal => differs (peerEqualsForMesh_iff.mp equal).2.symm
  have saved : savedRecord peers member = some (recordOf toAppEpk (some survivor) member) := by
    rw [savedRecord_eq, survives, Option.any_some, if_neg unequal]
  obtain ⟨record, last⟩ := exists_lastSaved mem saved
  change lastSaved peers members survivor.remoteEpk = some record at last
  have kept : survivor.remoteEpk ∉ peers.filterMap (removedKey peers members) := by
    intro removed
    rw [lookup_replace, if_pos removed, stored] at again
    cases again
  rw [lookup_unremoved kept, last, stored] at again
  -- what is saved last differs from the survivor too
  obtain ⟨own, other, -, otherSaved⟩ := lastSaved_some last
  obtain ⟨same, differing⟩ := savedRecord_some otherSaved
  have otherKey : toStandardB64 other.remoteEpk = toStandardB64 member.remoteEpk := by
    rw [← key_recordOf peers other, ← same, own, key]
  have unlike := differing survivor (by rw [otherKey]; exact survives)
  have equal : peerEqualsForMesh survivor record = true := by
    refine peerEqualsForMesh_iff.mpr ⟨own.symm, ?_⟩
    exact (congrArg PeerRecord.terms (Option.some.inj again)).symm
  rw [equal] at unlike
  cases unlike

/-- What an apply of a blob is for: the first three say what it leaves, the last one that it has
nothing more to do. -/
structure Exact (roster : Roster) (peers peers' : List PeerRecord) (members : List MeshMember) :
    Prop where
  present : ∀ key, Present (replaceLocalCacheWith peers members roster) key ↔
    (∃ member ∈ members, toStandardB64 member.remoteEpk = key) ∨
      ∃ remoteEpk peer, roster.lookup remoteEpk = some peer ∧ peer.channel.isSome = true ∧
        toStandardB64 remoteEpk = key
  alone : ∀ remoteEpk other record beside,
    (replaceLocalCacheWith peers members roster).lookup remoteEpk = some record →
      record.channel = none →
        (replaceLocalCacheWith peers members roster).lookup other = some beside →
          toStandardB64 other = toStandardB64 remoteEpk → other = remoteEpk
  channels : ∀ remoteEpk peer state, roster.lookup remoteEpk = some peer →
    peer.channel = some state →
      ∃ record, (replaceLocalCacheWith peers members roster).lookup remoteEpk = some record ∧
        record.channel = some state
  again : ∀ remoteEpk, (replaceLocalCacheWith peers' members
    (replaceLocalCacheWith peers members roster)).lookup remoteEpk =
      (replaceLocalCacheWith peers members roster).lookup remoteEpk

/-- An apply is exact exactly when the members that name one peer say the same of it. -/
theorem replace_exact_iff_agree (listed : Listing roster peers)
    (relisted : Listing (replaceLocalCacheWith peers members roster) peers')
    (ordered : SameOrder peers peers') : Exact roster peers peers' members ↔ Agree members := by
  constructor
  · intro exactly member mem other mem' same
    obtain ⟨remoteEpk, record, found, own⟩ :=
      (peers_after listed members (toStandardB64 member.remoteEpk)).mpr (.inl ⟨member, mem, rfl⟩)
    obtain ⟨survivor, survives⟩ := exists_survivorOf (relisted.mem found)
    rw [relisted.keyed _ _ found, own] at survives
    -- both are compared with the same record
    have one := terms_of_again relisted mem survives (exactly.again survivor.remoteEpk)
    rw [same] at survives
    exact one.trans (terms_of_again relisted mem' survives (exactly.again survivor.remoteEpk)).symm
  · intro agree
    exact ⟨peers_after listed members, fun _ _ _ _ found bare beside same =>
      metadata_alone listed found bare beside same, fun _ _ _ stored channel =>
        channel_after listed members stored channel, replace_again listed relisted ordered agree⟩

end Again

private def deskMember : MeshMember :=
  ⟨"+/8=", "wss://relay", "2026-01-01T00:00:00Z", some "desk"⟩

private def labMember : MeshMember := { deskMember with nickname := some "lab" }

private def twoSpellings : Roster :=
  ((∅ : Roster).insert "-_8" ⟨"-_8", "pi", "wss://relay", "2026-01-01T00:00:00Z", none, none, none,
    some ⟨⟨"s", "r"⟩, 7, 4⟩⟩).insert "+/8="
      ⟨"+/8=", "pi", "wss://relay", "2026-01-01T00:00:00Z", none, none, none, none⟩

/-- A paired peer with a shadowed record is given a name. -/
theorem replace_exact_iff_agree_twoSpellings : ∃ roster peers peers' members,
    Listing roster peers ∧ Listing (replaceLocalCacheWith peers members roster) peers' ∧
      SameOrder peers peers' ∧ (Exact roster peers peers' members ↔ Agree members) := by
  have listed : Listing twoSpellings (twoSpellings.entries.map Sigma.snd) :=
    listing_entries (by decide +kernel)
  have relisted : Listing (replaceLocalCacheWith (twoSpellings.entries.map Sigma.snd) [deskMember]
      twoSpellings) ((replaceLocalCacheWith (twoSpellings.entries.map Sigma.snd) [deskMember]
        twoSpellings).entries.map Sigma.snd) :=
    listing_entries (by decide +kernel)
  have ordered : SameOrder (twoSpellings.entries.map Sigma.snd)
      ((replaceLocalCacheWith (twoSpellings.entries.map Sigma.snd) [deskMember]
        twoSpellings).entries.map Sigma.snd) := by
    unfold SameOrder
    decide +kernel
  exact ⟨_, _, _, _, listed, relisted, ordered, replace_exact_iff_agree listed relisted ordered⟩

/-- Two members name one peer with two names, which take turns. -/
theorem exists_alternating_apply : ∃ roster peers peers' members,
    Listing roster peers ∧ Listing (replaceLocalCacheWith peers members roster) peers' ∧
      SameOrder peers peers' ∧ ¬ Exact roster peers peers' members := by
  have listed : Listing (∅ : Roster) [] := listing_entries (by decide +kernel)
  have relisted : Listing (replaceLocalCacheWith [] [deskMember, labMember] ∅)
      ((replaceLocalCacheWith [] [deskMember, labMember] ∅).entries.map Sigma.snd) :=
    listing_entries (by decide +kernel)
  refine ⟨∅, [], _, [deskMember, labMember], listed, relisted, ?_, ?_⟩
  · intro a mem
    cases mem
  · intro exactly
    have changed : (replaceLocalCacheWith
        ((replaceLocalCacheWith [] [deskMember, labMember] ∅).entries.map Sigma.snd)
          [deskMember, labMember] (replaceLocalCacheWith [] [deskMember, labMember] ∅)).lookup
            "-_8" ≠ (replaceLocalCacheWith [] [deskMember, labMember] ∅).lookup "-_8" := by
      decide +kernel
    exact changed (exactly.again "-_8")

end OutpostPi.App.MeshApply
