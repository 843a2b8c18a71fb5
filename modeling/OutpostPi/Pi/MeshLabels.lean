import OutpostPi.Lib.Base64Padding
import OutpostPi.Lib.FirstValue
import OutpostPi.Pi.SelfRevoke
import OutpostPi.Session.BrokerRemote

/-!
# The labels of the siblings

A Pi learns its own label and its siblings from the blobs of its Owners, once when it attaches to
the mesh (`discoverSelfLabel`, `discoverSiblings`) and again with every sweep for revocations
(`computeSiblingUnion`). The first nickname of a key wins, and a key without one is labelled by the
first characters of its spelling.

Discovery tells this Pi from the others by the bytes of its key, the sweep by the spelling, and both
tell the others apart by their spelling. `labels_agree_iff` says under which spellings two Pis agree
on their labels. The keys of Pis have 32 bytes; a member may name any bytes, and other ones are the
key of no Pi.
-/

set_option autoImplicit false

namespace OutpostPi.Pi.MeshLabels

open OutpostPi.Lib OutpostPi.Session OutpostPi.Pi.SelfRevoke

/-- The label of a key that no Owner has labelled. -/
def fallbackLabel (pcPubkey : String) : String := String.ofList (pcPubkey.toList.take 8)

/-- A nickname, absent where it is empty. -/
def MeshMember.label (m : MeshMember) : Option String := m.nickname.filter fun name => name ≠ ""

/-- The siblings that a table of nicknames lists. -/
def toSiblings (nicknames : OrderedMap String (Option String)) : List SiblingInfo :=
  nicknames.entries.map fun entry =>
    { pcLabel := entry.2.getD (fallbackLabel entry.1), pcPubkey := entry.1 }

section Sources

-- The verified header that the relay has under the key of an Owner. It is absent where there is
-- none, and where it cannot be fetched or verified.
variable (fetch : Bytes → Option MeshHeader)

/-- The first nickname that an Owner gives this Pi. -/
def discoverSelfLabel (ownerEpks : List String) (myPubkey : Bytes) : String :=
  let nickname := ownerEpks.findSome? fun ownerEpk =>
    (fetch (decodeB64Any ownerEpk)).bind fun header =>
      header.members.findSome? fun m =>
        if decodeB64Any m.remoteEpk = myPubkey then MeshMember.label m else none
  nickname.getD (fallbackLabel (Base64.encode myPubkey))

/-- The siblings that the blobs of the Owners name, as the mesh labels them. -/
def discoverSiblings (ownerEpks : List String) (myPubkey : Bytes) : List SiblingInfo :=
  toSiblings <| ownerEpks.foldl
    (fun labels ownerEpk =>
      match fetch (decodeB64Any ownerEpk) with
      | none => labels
      | some header =>
        header.members.foldl
          (fun labels m =>
            if decodeB64Any m.remoteEpk = myPubkey then labels
            else labels.note m.remoteEpk (MeshMember.label m))
          labels)
    .empty

/-- The siblings that the sweeps know. -/
def computeSiblingUnion (memory : Memory) (myPubkey : Bytes) : List SiblingInfo :=
  toSiblings <| memory.membersByOwner.values.foldl
    (fun nicknames members =>
      members.foldl
        (fun nicknames m =>
          if m.pcPubkey = Base64.encode myPubkey then nicknames
          else nicknames.note m.pcPubkey m.nickname)
        nicknames)
    .empty

/-- A sweep over the Owners. -/
def checkOnce (memory : Memory) (owners : List String) (myPubkey : Bytes) : Memory :=
  owners.foldl
    (fun memory ownerEpk =>
      match fetch (decodeB64Any ownerEpk) with
      | none => memory
      | some header => (memory.checkOwner myPubkey ownerEpk header).1)
    (memory.prune owners)

end Sources

/-! ## The members that are seen -/

section Members

variable (fetch : Bytes → Option MeshHeader)

/-- The members in the blob of an Owner. -/
def membersOf (ownerEpk : String) : List MeshMember :=
  match fetch (decodeB64Any ownerEpk) with
  | none => []
  | some header => header.members

/-- The members in the blobs of some Owners. -/
def listed (owners : List String) : List MeshMember := owners.flatMap (membersOf fetch)

/-- The blob is kept by a sweep: its Owner is known by the standard spelling of the key in it, and
it names this Pi. -/
def Keeps (myPubkey : Bytes) (ownerEpk : String) (header : MeshHeader) : Prop :=
  Base64.encode header.ownerPk = ownerEpk ∧ stillMember myPubkey header.members = true

instance (myPubkey : Bytes) (ownerEpk : String) (header : MeshHeader) :
    Decidable (Keeps myPubkey ownerEpk header) :=
  inferInstanceAs (Decidable (_ ∧ _))

/-- The members in the blob of an Owner, where a sweep keeps it. -/
def keptMembersOf (myPubkey : Bytes) (ownerEpk : String) : List MeshMember :=
  match fetch (decodeB64Any ownerEpk) with
  | none => []
  | some header => if Keeps myPubkey ownerEpk header then header.members else []

/-- The members in the blobs that a sweep keeps. -/
def kept (myPubkey : Bytes) (owners : List String) : List MeshMember :=
  owners.flatMap (keptMembersOf fetch myPubkey)

end Members

/-- Members as entries under their spelling. -/
def spelled (members : List MeshMember) : List (String × Option String) :=
  members.map fun m => (m.remoteEpk, MeshMember.label m)

/-- Members as entries under their key. -/
def keyed (members : List MeshMember) : List (Bytes × Option String) :=
  members.map fun m => (decodeB64Any m.remoteEpk, MeshMember.label m)

/-- The spellings of two lists, one after the other. -/
theorem spelled_append (first second : List MeshMember) :
    spelled (first ++ second) = spelled first ++ spelled second :=
  List.map_append

/-- The keys of two lists, one after the other. -/
theorem keyed_append (first second : List MeshMember) :
    keyed (first ++ second) = keyed first ++ keyed second :=
  List.map_append

/-- The keys of a list with one more member in front. -/
theorem keyed_cons (m : MeshMember) (rest : List MeshMember) :
    keyed (m :: rest) = (decodeB64Any m.remoteEpk, MeshMember.label m) :: keyed rest :=
  rfl

/-! ## What each way computes -/

section Computed

variable {fetch : Bytes → Option MeshHeader} {myPubkey : Bytes}

/-- The siblings are the keys noted, each under its first label or the fallback. -/
theorem mem_toSiblings {entries : List (String × Option String)} {s : SiblingInfo} :
    s ∈ toSiblings (OrderedMap.noteAll entries .empty) ↔
      s.pcPubkey ∈ entries.map Prod.fst ∧
        s.pcLabel = (firstValue entries s.pcPubkey).getD (fallbackLabel s.pcPubkey) := by
  rw [toSiblings, List.mem_map]
  constructor
  · rintro ⟨⟨key, value⟩, mem, rfl⟩
    obtain ⟨named, same⟩ := OrderedMap.mem_noteAll.mp mem
    exact ⟨named, congrArg (·.getD (fallbackLabel key)) same⟩
  · rintro ⟨named, label⟩
    have noted : (s.pcPubkey, firstValue entries s.pcPubkey) ∈
        (OrderedMap.noteAll entries .empty).entries := OrderedMap.mem_noteAll.mpr ⟨named, rfl⟩
    refine ⟨_, noted, ?_⟩
    rw [← label]

/-- No spelling makes two siblings. -/
theorem nodup_toSiblings (nicknames : OrderedMap String (Option String)) :
    ((toSiblings nicknames).map SiblingInfo.pcPubkey).Nodup := by
  have keys : (toSiblings nicknames).map SiblingInfo.pcPubkey = nicknames.entries.map Prod.fst := by
    rw [toSiblings, List.map_map]
    rfl
  rw [keys]
  exact nicknames.distinct

/-- Notes with exceptions are the notes of the other members. -/
theorem foldl_note {α : Type} (skip : α → Prop) [DecidablePred skip] (key : α → String)
    (value : α → Option String) (items : List α) (labels : OrderedMap String (Option String)) :
    items.foldl
        (fun labels item =>
          if skip item then labels else labels.note (key item) (value item))
        labels =
      OrderedMap.noteAll
        ((items.filter fun item => ¬skip item).map fun item => (key item, value item)) labels := by
  induction items generalizing labels with
  | nil => rfl
  | cons item rest ih =>
    rw [List.foldl_cons, ih]
    by_cases skips : skip item
    · rw [if_pos skips, List.filter_cons_of_neg (by simpa using skips)]
    · rw [if_neg skips, List.filter_cons_of_pos (by simpa using skips)]
      rfl

/-- The siblings at start-up, as one collection over all listed members. -/
theorem discoverSiblings_eq (owners : List String) :
    discoverSiblings fetch owners myPubkey =
      toSiblings (OrderedMap.noteAll (spelled ((listed fetch owners).filter
        fun m => ¬decodeB64Any m.remoteEpk = myPubkey)) .empty) := by
  rw [discoverSiblings]
  congr 1
  generalize OrderedMap.empty = labels
  induction owners generalizing labels with
  | nil => rfl
  | cons ownerEpk rest ih =>
    have parts : listed fetch (ownerEpk :: rest) = membersOf fetch ownerEpk ++ listed fetch rest :=
      List.flatMap_cons
    rw [List.foldl_cons, ih, parts, List.filter_append, spelled_append, OrderedMap.noteAll_append]
    congr 1
    rw [membersOf]
    cases fetch (decodeB64Any ownerEpk) with
    | none => rfl
    | some header =>
      exact foldl_note (fun m : MeshMember => decodeB64Any m.remoteEpk = myPubkey) _ _ _ labels

/-- The first nickname of a key in the members of one blob. -/
theorem findSome?_label (members : List MeshMember) :
    (members.findSome? fun m =>
      if decodeB64Any m.remoteEpk = myPubkey then MeshMember.label m else none) =
      firstValue (keyed members) myPubkey := by
  induction members with
  | nil => rfl
  | cons m rest ih =>
    rw [List.findSome?_cons, ih, keyed_cons, firstValue]
    split
    · next found =>
      split at found
      · next same => rw [if_pos same, found, Option.some_or]
      · cases found
    · next missing =>
      split
      · next same =>
        dsimp only at same
        rw [if_pos same] at missing
        rw [missing, Option.none_or]
      · rfl

/-- The own label at start-up, as the first one listed for the own key. -/
theorem discoverSelfLabel_eq (owners : List String) :
    discoverSelfLabel fetch owners myPubkey =
      (firstValue (keyed (listed fetch owners)) myPubkey).getD
        (fallbackLabel (Base64.encode myPubkey)) := by
  rw [discoverSelfLabel]
  congr 1
  induction owners with
  | nil => rfl
  | cons ownerEpk rest ih =>
    have parts : listed fetch (ownerEpk :: rest) = membersOf fetch ownerEpk ++ listed fetch rest :=
      List.flatMap_cons
    rw [List.findSome?_cons, ih, parts, keyed_append, firstValue_append, membersOf]
    cases fetch (decodeB64Any ownerEpk) with
    | none => rfl
    | some header =>
      rw [Option.bind_some, findSome?_label]
      change _ = (firstValue (keyed header.members) myPubkey).or _
      cases firstValue (keyed header.members) myPubkey with
      | none => rfl
      | some nickname => rfl

end Computed

/-! ## The first sweep -/

section Sweep

variable {fetch : Bytes → Option MeshHeader} {myPubkey : Bytes}

/-- An Owner that a memory has not met. -/
def Unmet (memory : Memory) (ownerEpk : String) : Prop :=
  memory.lastSeenVersion.lookup ownerEpk = none ∧ ownerEpk ∉ memory.membersByOwner.keys

/-- Checking an Owner for the first time remembers its members where the blob is kept. -/
theorem checkOwner_unmet {memory : Memory} {ownerEpk : String} (unmet : Unmet memory ownerEpk)
    (header : MeshHeader) :
    (memory.checkOwner myPubkey ownerEpk header).1.membersByOwner =
      if Keeps myPubkey ownerEpk header then
        memory.membersByOwner.set ownerEpk (rawMembers header.members)
      else memory.membersByOwner := by
  rw [Memory.checkOwner, unmet.1]
  by_cases known : Base64.encode header.ownerPk = ownerEpk
  · rw [if_neg (not_not.mpr known)]
    dsimp only [Option.getD_none]
    rw [if_neg (Nat.not_lt_zero _)]
    by_cases member : stillMember myPubkey header.members = true
    · rw [if_pos member, if_pos ⟨known, member⟩]
    · rw [if_neg member, if_neg fun keeps => member keeps.2]
      exact OrderedMap.erase_set_of_not_mem unmet.2 _
  · rw [if_pos known, if_neg fun keeps => known keeps.1]

/-- Checking an Owner leaves the others unmet. -/
theorem unmet_checkOwner {memory : Memory} {ownerEpk other : String} (unmet : Unmet memory ownerEpk)
    (also : Unmet memory other) (differs : other ≠ ownerEpk) (header : MeshHeader) :
    Unmet (memory.checkOwner myPubkey ownerEpk header).1 other := by
  constructor
  · rw [Memory.checkOwner]
    split
    · exact also.1
    dsimp only
    split
    · exact also.1
    split
    · exact (AList.lookup_insert_ne differs).trans also.1
    · exact (AList.lookup_insert_ne differs).trans also.1
  · rw [checkOwner_unmet unmet]
    split
    · rw [OrderedMap.mem_keys_set, not_or]
      exact ⟨also.2, differs⟩
    · exact also.2

/-- The members of an Owner as they are remembered, where its blob is kept. -/
def keptEntry (fetch : Bytes → Option MeshHeader) (myPubkey : Bytes) (ownerEpk : String) :
    Option (String × List RawMember) :=
  (fetch (decodeB64Any ownerEpk)).bind fun header =>
    if Keeps myPubkey ownerEpk header then some (ownerEpk, rawMembers header.members) else none

/-- A sweep over new Owners appends what it keeps. -/
theorem entries_checkOwners (owners : List String) (distinct : owners.Nodup) (memory : Memory)
    (unmet : ∀ ownerEpk ∈ owners, Unmet memory ownerEpk) :
    (owners.foldl
      (fun memory ownerEpk =>
        match fetch (decodeB64Any ownerEpk) with
        -- an Owner without a blob keeps what is remembered, and there is nothing
        | none => memory
        | some header => (memory.checkOwner myPubkey ownerEpk header).1)
      memory).membersByOwner.entries =
      memory.membersByOwner.entries ++ owners.filterMap (keptEntry fetch myPubkey) := by
  induction owners generalizing memory with
  | nil => simp
  | cons ownerEpk rest ih =>
    rw [List.nodup_cons] at distinct
    have first := unmet ownerEpk List.mem_cons_self
    have later (other : String) (mem : other ∈ rest) : Unmet memory other :=
      unmet other (List.mem_cons_of_mem _ mem)
    rw [List.foldl_cons]
    cases found : fetch (decodeB64Any ownerEpk) with
    | none =>
      have nothing : keptEntry fetch myPubkey ownerEpk = none := by
        rw [keptEntry, found]
        rfl
      rw [List.filterMap_cons_none nothing]
      exact ih distinct.2 memory later
    | some header =>
      -- a check touches its own Owner only
      have rest_unmet (other : String) (mem : other ∈ rest) :
          Unmet (memory.checkOwner myPubkey ownerEpk header).1 other :=
        unmet_checkOwner first (later other mem) (fun same => distinct.1 (same ▸ mem)) header
      refine (ih distinct.2 _ rest_unmet).trans ?_
      rw [checkOwner_unmet first]
      by_cases keeps : Keeps myPubkey ownerEpk header
      · have entry : keptEntry fetch myPubkey ownerEpk =
            some (ownerEpk, rawMembers header.members) := by
          rw [keptEntry, found, Option.bind_some, if_pos keeps]
        rw [if_pos keeps, OrderedMap.entries_set_of_not_mem first.2, List.filterMap_cons_some entry,
          List.append_assoc, List.singleton_append]
      · have nothing : keptEntry fetch myPubkey ownerEpk = none := by
          rw [keptEntry, found, Option.bind_some, if_neg keeps]
        rw [if_neg keeps, List.filterMap_cons_none nothing]

/-- One check remembers the members of every owner that still lists this Pi. -/
theorem entries_checkOnce {owners : List String} (distinct : owners.Nodup) :
    (checkOnce fetch Memory.new owners myPubkey).membersByOwner.entries =
      owners.filterMap (keptEntry fetch myPubkey) :=
  entries_checkOwners owners distinct _ fun _ _ => ⟨rfl, List.not_mem_nil⟩

/-- The siblings after a check, as one collection over the kept members. -/
theorem computeSiblingUnion_eq {owners : List String} (distinct : owners.Nodup) :
    computeSiblingUnion (checkOnce fetch Memory.new owners myPubkey) myPubkey =
      toSiblings (OrderedMap.noteAll (spelled ((kept fetch myPubkey owners).filter
        fun m => ¬m.remoteEpk = Base64.encode myPubkey)) .empty) := by
  rw [computeSiblingUnion, OrderedMap.values, entries_checkOnce distinct]
  clear distinct
  congr 1
  generalize OrderedMap.empty = nicknames
  induction owners generalizing nicknames with
  | nil => rfl
  | cons ownerEpk rest ih =>
    have parts : kept fetch myPubkey (ownerEpk :: rest) =
        keptMembersOf fetch myPubkey ownerEpk ++ kept fetch myPubkey rest := List.flatMap_cons
    rw [parts, List.filter_append, spelled_append, OrderedMap.noteAll_append, ← ih]
    cases found : fetch (decodeB64Any ownerEpk) with
    | none =>
      rw [List.filterMap_cons_none (by rw [keptEntry, found]; rfl), keptMembersOf, found]
      rfl
    | some header =>
      by_cases keeps : Keeps myPubkey ownerEpk header
      · have entry : keptEntry fetch myPubkey ownerEpk =
            some (ownerEpk, rawMembers header.members) := by
          rw [keptEntry, found, Option.bind_some, if_pos keeps]
        have members : keptMembersOf fetch myPubkey ownerEpk = header.members := by
          rw [keptMembersOf, found]
          exact if_pos keeps
        rw [List.filterMap_cons_some entry, List.map_cons, List.foldl_cons, members]
        congr 1
        rw [rawMembers, List.foldl_map]
        exact foldl_note (fun m : MeshMember => m.remoteEpk = Base64.encode myPubkey) _
          MeshMember.label _ nicknames
      · have nothing : keptEntry fetch myPubkey ownerEpk = none := by
          rw [keptEntry, found, Option.bind_some, if_neg keeps]
        have members : keptMembersOf fetch myPubkey ownerEpk = [] := by
          rw [keptMembersOf, found]
          exact if_neg keeps
        rw [List.filterMap_cons_none nothing, members]
        rfl

end Sweep

/-! ## Agreement -/

/-- The label of a spelling in a list of members. -/
def labelIn (members : List MeshMember) (epk : String) : String :=
  (firstValue (spelled members) epk).getD (fallbackLabel epk)

/-- The siblings that a Pi reports after a first sweep. -/
def reported (fetch : Bytes → Option MeshHeader) (owners : List String) (myPubkey : Bytes) :
    List SiblingInfo :=
  computeSiblingUnion (checkOnce fetch Memory.new owners myPubkey) myPubkey

/-- The keys of 32 bytes of some siblings, each as often as a sibling has it. -/
def keysOf (siblings : List SiblingInfo) : List Bytes :=
  (siblings.filter fun s => (decodeB64Any s.pcPubkey).length = 32).map
    fun s => decodeB64Any s.pcPubkey

/-- The Pi `x` gives `y` the label that `y` has for itself, its discovery and its sweep find the
same siblings, and these are other Pis, each key of 32 bytes once. -/
structure Agree (fetch : Bytes → Option MeshHeader) (x y : Bytes) (ownersX ownersY : List String) :
    Prop where
  label : ∀ s ∈ discoverSiblings fetch ownersX x, decodeB64Any s.pcPubkey = y →
    s.pcLabel = discoverSelfLabel fetch ownersY y
  union : ∀ s, s ∈ discoverSiblings fetch ownersX x ↔ s ∈ reported fetch ownersX x
  others : ∀ s, s ∈ discoverSiblings fetch ownersX x ∨ s ∈ reported fetch ownersX x →
    decodeB64Any s.pcPubkey ≠ x
  discoveredOnce : (keysOf (discoverSiblings fetch ownersX x)).Nodup
  reportedOnce : (keysOf (reported fetch ownersX x)).Nodup

/-- How the blobs spell and label the members. -/
structure WellSpelled (fetch : Bytes → Option MeshHeader) (x y : Bytes)
    (ownersX ownersY : List String) : Prop where
  /-- The blobs spell every other key of 32 bytes in one way. -/
  oneSpelling : ∀ m ∈ listed fetch ownersX, ∀ m' ∈ listed fetch ownersX,
    decodeB64Any m.remoteEpk ≠ x → (decodeB64Any m.remoteEpk).length = 32 →
    decodeB64Any m.remoteEpk = decodeB64Any m'.remoteEpk → m.remoteEpk = m'.remoteEpk
  /-- The blobs that a sweep keeps spell the Pi itself in the standard way. -/
  ownSpelling : ∀ m ∈ kept fetch x ownersX, decodeB64Any m.remoteEpk = x →
    m.remoteEpk = Base64.encode x
  /-- The first nickname of the other Pi is one, in the order of the Owners here and there. -/
  nickname : firstValue (keyed (listed fetch ownersX)) y =
    firstValue (keyed (listed fetch ownersY)) y
  /-- Without a nickname the spelling of the other Pi begins as the standard one. -/
  fallback : firstValue (keyed (listed fetch ownersX)) y = none →
    ∀ m ∈ listed fetch ownersX, decodeB64Any m.remoteEpk = y →
      fallbackLabel m.remoteEpk = fallbackLabel (Base64.encode y)
  /-- The blobs that a sweep drops list no other sibling, and label none before those it keeps. -/
  dropped : ∀ m ∈ listed fetch ownersX, decodeB64Any m.remoteEpk ≠ x →
    (∃ m' ∈ kept fetch x ownersX, m'.remoteEpk = m.remoteEpk) ∧
      labelIn (kept fetch x ownersX) m.remoteEpk = labelIn (listed fetch ownersX) m.remoteEpk

section Agreement

variable {fetch : Bytes → Option MeshHeader} {x y : Bytes} {ownersX ownersY : List String}

/-- The spellings are those of the members. -/
theorem mem_map_spelled {members : List MeshMember} {epk : String} :
    epk ∈ (spelled members).map Prod.fst ↔ ∃ m ∈ members, m.remoteEpk = epk := by
  simp [spelled]

variable {s : SiblingInfo}

/-- The siblings of a list of members, where some spellings are skipped. -/
theorem mem_toSiblings_spelled (skip : String → Prop) [DecidablePred skip]
    (members : List MeshMember) :
    s ∈ toSiblings (OrderedMap.noteAll
        (spelled (members.filter fun m => ¬skip m.remoteEpk)) .empty) ↔
      (∃ m ∈ members, m.remoteEpk = s.pcPubkey) ∧ ¬skip s.pcPubkey ∧
        s.pcLabel = labelIn members s.pcPubkey := by
  have label (counts : ¬skip s.pcPubkey) :
      firstValue (spelled (members.filter fun m => ¬skip m.remoteEpk)) s.pcPubkey =
        firstValue (spelled members) s.pcPubkey :=
    firstValue_map_filter fun m _ same => decide_eq_true (same ▸ counts)
  rw [mem_toSiblings, mem_map_spelled]
  constructor
  · rintro ⟨⟨m, mem, same⟩, labelled⟩
    obtain ⟨inBlob, counts⟩ := List.mem_filter.mp mem
    have counts : ¬skip s.pcPubkey := same ▸ of_decide_eq_true counts
    exact ⟨⟨m, inBlob, same⟩, counts, by rw [labelled, label counts, labelIn]⟩
  · rintro ⟨⟨m, inBlob, same⟩, counts, labelled⟩
    refine ⟨⟨m, List.mem_filter.mpr ⟨inBlob, decide_eq_true (same.symm ▸ counts)⟩, same⟩, ?_⟩
    rw [labelled, label counts, labelIn]

/-- What a Pi discovers: the members with another key, under their labels. -/
theorem mem_discoverSiblings :
    s ∈ discoverSiblings fetch ownersX x ↔
      (∃ m ∈ listed fetch ownersX, m.remoteEpk = s.pcPubkey) ∧ decodeB64Any s.pcPubkey ≠ x ∧
        s.pcLabel = labelIn (listed fetch ownersX) s.pcPubkey := by
  rw [discoverSiblings_eq]
  exact mem_toSiblings_spelled (fun epk => decodeB64Any epk = x) _

/-- What a Pi reports: the members of the blobs it keeps with another spelling than its own. -/
theorem mem_reported (distinct : ownersX.Nodup) :
    s ∈ reported fetch ownersX x ↔
      (∃ m ∈ kept fetch x ownersX, m.remoteEpk = s.pcPubkey) ∧ s.pcPubkey ≠ Base64.encode x ∧
        s.pcLabel = labelIn (kept fetch x ownersX) s.pcPubkey := by
  rw [reported, computeSiblingUnion_eq distinct]
  exact mem_toSiblings_spelled (fun epk => epk = Base64.encode x) _

/-- What is read of a spelling: its letters, up to the first padding. -/
theorem decodeB64Any_eq (s : String) :
    decodeB64Any s = Base64.bytesOf (Base64.readDigits s.toList) := by
  rw [decodeB64Any, Base64.decode, String.toList_ofList, Base64.readDigits_append_padding]
  exact congrArg Base64.bytesOf (Base64.readDigits_map_normalize s.toList)

/-- The standard spelling is one of the key. -/
theorem decodeB64Any_encode (bytes : Bytes) : decodeB64Any (Base64.encode bytes) = bytes := by
  rw [decodeB64Any_eq, ← Base64.decode, Base64.decode_encode]

/-- What a text decodes to: its digits before the first `=`. -/
theorem decodeB64Any_ofList (text : List Char) :
    decodeB64Any (String.ofList text) =
      Base64.bytesOf ((text.takeWhile (· != '=')).filterMap fun c =>
        Base64.alphabet.findIdx? (· == Base64.normalize c)) := by
  rw [decodeB64Any_eq, String.toList_ofList]
  rfl

/-- A blob that is kept is one of those that are listed. -/
theorem mem_listed_of_mem_kept {m : MeshMember} (mem : m ∈ kept fetch x ownersX) :
    m ∈ listed fetch ownersX := by
  obtain ⟨ownerEpk, owner, member⟩ := List.mem_flatMap.mp mem
  refine List.mem_flatMap.mpr ⟨ownerEpk, owner, ?_⟩
  rw [keptMembersOf] at member
  rw [membersOf]
  split at member
  · exact absurd member List.not_mem_nil
  · split at member
    · exact member
    · exact absurd member List.not_mem_nil

/-- With one spelling for a key, its nickname is the one of the spelling. -/
theorem firstValue_spelled {m : MeshMember}
    (oneSpelling : ∀ m' ∈ listed fetch ownersX,
      decodeB64Any m.remoteEpk = decodeB64Any m'.remoteEpk → m.remoteEpk = m'.remoteEpk) :
    firstValue (spelled (listed fetch ownersX)) m.remoteEpk =
      firstValue (keyed (listed fetch ownersX)) (decodeB64Any m.remoteEpk) := by
  refine firstValue_map_congr fun m' listed' => ?_
  constructor
  · exact fun same => congrArg decodeB64Any same
  · exact fun same => (oneSpelling m' listed' same.symm).symm

/-- The same blobs have the same keys with nicknames, whatever the order of the Owners. -/
theorem isSome_firstValue_listed (fetch : Bytes → Option MeshHeader) (y : Bytes)
    (alike : ∀ owner, owner ∈ ownersX ↔ owner ∈ ownersY) :
    (firstValue (keyed (listed fetch ownersX)) y).isSome ↔
      (firstValue (keyed (listed fetch ownersY)) y).isSome := by
  have listed_iff (m : MeshMember) : m ∈ listed fetch ownersX ↔ m ∈ listed fetch ownersY := by
    simp only [listed, List.mem_flatMap, alike]
  rw [isSome_firstValue, isSome_firstValue]
  simp only [keyed, List.mem_map, listed_iff]

/-- A Pi is not among the siblings that another spelling than its own brings into a report. -/
theorem ne_encode_of_other {epk : String} (other : decodeB64Any epk ≠ x) :
    epk ≠ Base64.encode x := by
  rintro rfl
  exact other (decodeB64Any_encode x)

/-- The sibling that a member is, in the discovery. -/
def siblingOf (fetch : Bytes → Option MeshHeader) (ownersX : List String) (m : MeshMember) :
    SiblingInfo where
  pcLabel := labelIn (listed fetch ownersX) m.remoteEpk
  pcPubkey := m.remoteEpk

/-- Every other listed member makes a sibling. -/
theorem siblingOf_mem {m : MeshMember} (mem : m ∈ listed fetch ownersX)
    (other : decodeB64Any m.remoteEpk ≠ x) :
    siblingOf fetch ownersX m ∈ discoverSiblings fetch ownersX x :=
  mem_discoverSiblings.mpr ⟨⟨m, mem, rfl⟩, other, rfl⟩

/-- Siblings with the same key of 32 bytes are one, where such a key occurs once. -/
theorem eq_of_nodup_keysOf {siblings : List SiblingInfo} (once : (keysOf siblings).Nodup)
    {t : SiblingInfo} (one : s ∈ siblings) (other : t ∈ siblings)
    (long : (decodeB64Any s.pcPubkey).length = 32)
    (same : decodeB64Any s.pcPubkey = decodeB64Any t.pcPubkey) : s = t :=
  List.inj_on_of_nodup_map once (List.mem_filter.mpr ⟨one, decide_eq_true long⟩)
    (List.mem_filter.mpr ⟨other, decide_eq_true (same ▸ long)⟩) same

/-- If the labels agree, the keys are well spelled. -/
theorem Agree.wellSpelled (agree : Agree fetch x y ownersX ownersY) (different : y ≠ x)
    (long : y.length = 32) (distinct : ownersX.Nodup) (alike : ∀ owner, owner ∈ ownersX ↔ owner ∈ ownersY) :
    WellSpelled fetch x y ownersX ownersY := by
  have oneSpelling (m : MeshMember) (mem : m ∈ listed fetch ownersX) (m' : MeshMember)
      (mem' : m' ∈ listed fetch ownersX) (other : decodeB64Any m.remoteEpk ≠ x)
      (long : (decodeB64Any m.remoteEpk).length = 32)
      (same : decodeB64Any m.remoteEpk = decodeB64Any m'.remoteEpk) :
      m.remoteEpk = m'.remoteEpk := by
    have one := eq_of_nodup_keysOf agree.discoveredOnce (siblingOf_mem mem other)
      (siblingOf_mem mem' (same ▸ other)) long same
    exact congrArg SiblingInfo.pcPubkey one
  -- the label of `y` here is that of its one spelling
  have labels (m : MeshMember) (mem : m ∈ listed fetch ownersX)
      (isY : decodeB64Any m.remoteEpk = y) :
      (firstValue (keyed (listed fetch ownersX)) y).getD (fallbackLabel m.remoteEpk) =
        (firstValue (keyed (listed fetch ownersY)) y).getD (fallbackLabel (Base64.encode y)) := by
    have other : decodeB64Any m.remoteEpk ≠ x := isY ▸ different
    have same := agree.label _ (siblingOf_mem mem other) isY
    rw [discoverSelfLabel_eq, siblingOf, labelIn, firstValue_spelled fun m' mem' =>
      oneSpelling m mem m' mem' other (isY ▸ long), isY] at same
    exact same
  have isSome := isSome_firstValue_listed fetch y alike
  constructor
  case oneSpelling => exact oneSpelling
  case ownSpelling =>
    intro m mem own
    by_contra differs
    refine agree.others ⟨labelIn (kept fetch x ownersX) m.remoteEpk, m.remoteEpk⟩ (Or.inr ?_) own
    exact (mem_reported distinct).mpr ⟨⟨m, mem, rfl⟩, differs, rfl⟩
  case nickname =>
    cases here : firstValue (keyed (listed fetch ownersX)) y with
    | none =>
      rw [here] at isSome
      exact (Option.not_isSome_iff_eq_none.mp fun there => by simpa using isSome.mpr there).symm
    | some nickname =>
      obtain ⟨entry, inBlob, isY, -⟩ := isSome_firstValue.mp (Option.isSome_of_eq_some here)
      obtain ⟨m, mem, rfl⟩ := List.mem_map.mp inBlob
      dsimp only at isY
      have same := labels m mem isY
      rw [here] at same isSome
      obtain ⟨nickname', there⟩ := Option.isSome_iff_exists.mp (isSome.mp rfl)
      rw [there] at same ⊢
      exact congrArg some same
  case fallback =>
    intro unlabelled m mem isY
    have there : firstValue (keyed (listed fetch ownersY)) y = none := by
      rw [unlabelled] at isSome
      exact Option.not_isSome_iff_eq_none.mp fun some => by simpa using isSome.mpr some
    have same := labels m mem isY
    rwa [unlabelled, there] at same
  case dropped =>
    intro m mem other
    obtain ⟨keptMember, -, label⟩ :=
      (mem_reported distinct).mp ((agree.union _).mp (siblingOf_mem mem other))
    exact ⟨keptMember, label.symm⟩

/-- Siblings that are discovered with the same key of 32 bytes are one. -/
theorem eq_of_discovered (spelling : WellSpelled fetch x y ownersX ownersY) {t : SiblingInfo}
    (one : s ∈ discoverSiblings fetch ownersX x) (other : t ∈ discoverSiblings fetch ownersX x)
    (long : (decodeB64Any s.pcPubkey).length = 32)
    (same : decodeB64Any s.pcPubkey = decodeB64Any t.pcPubkey) : s = t := by
  obtain ⟨⟨m, mem, isS⟩, differs, labelS⟩ := mem_discoverSiblings.mp one
  obtain ⟨⟨m', mem', isT⟩, -, labelT⟩ := mem_discoverSiblings.mp other
  have spelled : s.pcPubkey = t.pcPubkey := by
    rw [← isS, ← isT]
    exact spelling.oneSpelling m mem m' mem' (isS ▸ differs) (isS ▸ long) (by rw [isS, isT, same])
  have label : s.pcLabel = t.pcLabel := by rw [labelS, labelT, spelled]
  calc
    s = ⟨s.pcLabel, s.pcPubkey⟩ := rfl
    _ = ⟨t.pcLabel, t.pcPubkey⟩ := by rw [label, spelled]
    _ = t := rfl

/-- A list of siblings, each with a spelling of its own, in which a key of 32 bytes belongs to one
sibling. -/
theorem nodup_keysOf {siblings : List SiblingInfo}
    (spellings : (siblings.map SiblingInfo.pcPubkey).Nodup)
    (one : ∀ s ∈ siblings, ∀ t ∈ siblings, (decodeB64Any s.pcPubkey).length = 32 →
      decodeB64Any s.pcPubkey = decodeB64Any t.pcPubkey → s = t) :
    (keysOf siblings).Nodup := by
  refine (spellings.of_map.filter _).map_on fun s mem t mem' same => ?_
  obtain ⟨inS, long⟩ := List.mem_filter.mp mem
  exact one s inS t (List.mem_filter.mp mem').1 (of_decide_eq_true long) same

/-- If the keys are well spelled, the labels agree. -/
theorem WellSpelled.agree (spelling : WellSpelled fetch x y ownersX ownersY)
    (long : y.length = 32) (distinct : ownersX.Nodup) : Agree fetch x y ownersX ownersY := by
  -- with one spelling for each key, both ways find the same siblings
  have union (s : SiblingInfo) :
      s ∈ discoverSiblings fetch ownersX x ↔ s ∈ reported fetch ownersX x := by
    rw [mem_discoverSiblings, mem_reported distinct]
    constructor
    · rintro ⟨⟨m, mem, same⟩, other, label⟩
      obtain ⟨keptMember, sameLabel⟩ := spelling.dropped m mem (same ▸ other)
      rw [same] at keptMember sameLabel
      exact ⟨keptMember, ne_encode_of_other other, label.trans sameLabel.symm⟩
    · rintro ⟨⟨m, mem, same⟩, differs, label⟩
      have inBlob := mem_listed_of_mem_kept mem
      have other : decodeB64Any s.pcPubkey ≠ x := by
        intro own
        exact differs (same.symm.trans (spelling.ownSpelling m mem (same ▸ own)))
      have sameLabel := (spelling.dropped m inBlob (same ▸ other)).2
      rw [same] at sameLabel
      exact ⟨⟨m, inBlob, same⟩, other, label.trans sameLabel⟩
  constructor
  -- the first nickname for the spelling is the first nickname for the key
  case label =>
    intro s mem isY
    obtain ⟨⟨m, inBlob, same⟩, other, label⟩ := mem_discoverSiblings.mp mem
    have nickname := firstValue_spelled fun m' mem' => spelling.oneSpelling m inBlob m' mem'
      (same ▸ other) (by rw [same, isY, long])
    rw [same, isY] at nickname
    rw [label, labelIn, nickname, discoverSelfLabel_eq, ← spelling.nickname]
    cases here : firstValue (keyed (listed fetch ownersX)) y with
    | some nickname => rfl
    | none =>
      have beginning := spelling.fallback here m inBlob (by rw [same, isY])
      rwa [same] at beginning
  case union => exact union
  case others =>
    rintro s (mem | mem)
    · exact (mem_discoverSiblings.mp mem).2.1
    · exact (mem_discoverSiblings.mp ((union s).mpr mem)).2.1
  case discoveredOnce =>
    refine nodup_keysOf (nodup_toSiblings _) fun s one t other long same => ?_
    exact eq_of_discovered spelling one other long same
  case reportedOnce =>
    refine nodup_keysOf (nodup_toSiblings _) fun s one t other long same => ?_
    exact eq_of_discovered spelling ((union s).mpr one) ((union t).mpr other) long same

/-- Two Pis that see the blobs of the same Owners, each in its own order, agree on the label of the
one and on the siblings of the other if and only if the blobs are well spelled. -/
theorem labels_agree_iff (fetch : Bytes → Option MeshHeader) (x y : Bytes) (different : y ≠ x)
    (long : y.length = 32) (ownersX ownersY : OrderedSet String)
    (alike : ∀ owner, owner ∈ ownersX.items ↔ owner ∈ ownersY.items) :
    Agree fetch x y ownersX.items ownersY.items ↔
      WellSpelled fetch x y ownersX.items ownersY.items :=
  ⟨fun agree => agree.wellSpelled different long ownersX.distinct alike,
    fun spelling => spelling.agree long ownersX.distinct⟩

end Agreement

/-! ## Two Pis and one Owner -/

/-- The key of an Owner. -/
def ownerKey : Bytes := List.replicate 32 1

/-- The key of a Pi. -/
def firstPi : Bytes := List.replicate 32 0

/-- The key of another Pi. -/
def secondPi : Bytes := List.replicate 32 255

/-- A member of a blob. -/
def member (remoteEpk : String) (nickname : Option String) : MeshMember where
  remoteEpk := remoteEpk
  relayUrl := "wss://relay"
  pairedAt := "2026-01-01T00:00:00Z"
  nickname := nickname

/-- The relay has one blob with some members. -/
def oneBlob (members : List MeshMember) (ownerPk : Bytes) : Option MeshHeader :=
  if ownerPk = ownerKey then
    some { version := 1, issuedAt := 0, ownerPk := ownerKey, members := members }
  else none

/-- The list of one Owner. -/
def oneOwner : OrderedSet String := OrderedSet.empty.add (Base64.encode ownerKey)

/-- Both keys in the standard spelling, one of them with a nickname. -/
def standardMembers : List MeshMember :=
  [member (Base64.encode firstPi) none, member (Base64.encode secondPi) (some "tower")]

/-- The blob of the relay is found under the standard spelling of its key. -/
theorem oneBlob_ownerKey (members : List MeshMember) :
    oneBlob members (decodeB64Any (Base64.encode ownerKey)) =
      some { version := 1, issuedAt := 0, ownerPk := ownerKey, members := members } := by
  rw [decodeB64Any_encode, oneBlob, if_pos rfl]

/-- The one owner of the example lists its members. -/
theorem listed_oneBlob (members : List MeshMember) :
    listed (oneBlob members) oneOwner.items = members := by
  change [Base64.encode ownerKey].flatMap (membersOf (oneBlob members)) = members
  rw [List.flatMap_singleton, membersOf, oneBlob_ownerKey]

/-- A check keeps the members of the one owner, if they name this Pi. -/
theorem kept_oneBlob {members : List MeshMember} {myPubkey : Bytes}
    (named : stillMember myPubkey members = true) :
    kept (oneBlob members) myPubkey oneOwner.items = members := by
  change [Base64.encode ownerKey].flatMap (keptMembersOf (oneBlob members) myPubkey) = members
  rw [List.flatMap_singleton, keptMembersOf, oneBlob_ownerKey]
  exact if_pos ⟨rfl, named⟩

/-- A Pi that comes first in a list is named in it. -/
theorem stillMember_cons {m : MeshMember} {myPubkey : Bytes}
    (named : decodeB64Any m.remoteEpk = myPubkey) (rest : List MeshMember) :
    stillMember myPubkey (m :: rest) = true := by
  rw [stillMember, List.any_cons, decide_eq_true named, Bool.true_or]

/-- The two Pis of the example have different keys. -/
theorem firstPi_ne_secondPi : firstPi ≠ secondPi := by decide

/-- Two Pis agree whose keys are in the standard spelling. -/
theorem labels_agree_iff_standard :
    Agree (oneBlob standardMembers) firstPi secondPi oneOwner.items oneOwner.items := by
  have own : decodeB64Any (member (Base64.encode firstPi) none).remoteEpk = firstPi :=
    decodeB64Any_encode firstPi
  have named : stillMember firstPi standardMembers = true := stillMember_cons own _
  have keptBlob := kept_oneBlob named
  have members : ∀ m ∈ standardMembers, m.remoteEpk = Base64.encode (decodeB64Any m.remoteEpk) := by
    intro m mem
    rcases List.mem_pair.mp mem with rfl | rfl
    · exact congrArg Base64.encode (decodeB64Any_encode firstPi).symm
    · exact congrArg Base64.encode (decodeB64Any_encode secondPi).symm
  refine (labels_agree_iff _ _ _ firstPi_ne_secondPi.symm rfl oneOwner oneOwner
    fun _ => Iff.rfl).mpr ?_
  constructor
  · rw [listed_oneBlob]
    intro m mem m' mem' _ _ same
    rw [members m mem, members m' mem', same]
  · rw [keptBlob]
    intro m mem same
    rw [members m mem, same]
  · rfl
  · rw [listed_oneBlob]
    intro _ m mem same
    rw [members m mem, same]
  · rw [listed_oneBlob, keptBlob]
    intro m mem _
    exact ⟨⟨m, mem, rfl⟩, rfl⟩

/-- The key of the second Pi in the url-safe spelling without padding. -/
def urlSafeSecond : String := "__________________________________________8"

/-- The key of the first Pi in the spelling without padding. -/
def unpaddedFirst : String := "AAAAAAAAAAAAAAAAAAAAAAAAAAAAAAAAAAAAAAAAAAA"

/-- The URL-safe spelling, digit by digit. -/
theorem urlSafeSecond_eq : urlSafeSecond = String.ofList (List.replicate 42 '_' ++ ['8']) := rfl

/-- The spelling without padding, digit by digit. -/
theorem unpaddedFirst_eq : unpaddedFirst = String.ofList (List.replicate 43 'A') := rfl

/-- The URL-safe spelling is one of the second key. -/
theorem decode_urlSafeSecond : decodeB64Any urlSafeSecond = secondPi := by
  rw [urlSafeSecond_eq, decodeB64Any_ofList, Base64.alphabet_eq]
  decide +kernel

/-- The spelling without padding is one of the first key. -/
theorem decode_unpaddedFirst : decodeB64Any unpaddedFirst = firstPi := by
  rw [unpaddedFirst_eq, decodeB64Any_ofList, Base64.alphabet_eq]
  decide +kernel

/-- The standard spelling of a key of 32 bytes has 44 characters. -/
theorem ofList_ne_encode {text : List Char} {key : Bytes} (length : key.length = 32)
    (short : text.length = 43) : String.ofList text ≠ Base64.encode key := by
  intro same
  have lengths := congrArg List.length (String.ofList_injective same)
  rw [Base64.length_encodeChars, length, short] at lengths
  cases lengths

/-- Entries without a value give none to any key. -/
theorem firstValue_of_none {κ ν : Type*} [DecidableEq κ] {entries : List (κ × Option ν)}
    (none : ∀ entry ∈ entries, entry.2 = none) (key : κ) : firstValue entries key = .none := by
  rw [← Option.not_isSome_iff_eq_none, isSome_firstValue]
  rintro ⟨entry, mem, -, isSome⟩
  rw [none entry mem] at isSome
  cases isSome

/-- A blob in which the first Pi stands without padding, and the second in both alphabets. The first
gives the second a label that is not its own one, discovers it twice, and reports itself. -/
theorem exists_labels_that_differ :
    let fetch := oneBlob [member unpaddedFirst none, member urlSafeSecond none,
      member (Base64.encode secondPi) none]
    (∃ s ∈ discoverSiblings fetch oneOwner.items firstPi, decodeB64Any s.pcPubkey = secondPi ∧
      s.pcLabel ≠ discoverSelfLabel fetch oneOwner.items secondPi) ∧
    (∃ s ∈ reported fetch oneOwner.items firstPi, decodeB64Any s.pcPubkey = firstPi ∧
      s ∉ discoverSiblings fetch oneOwner.items firstPi) ∧
    ¬(keysOf (discoverSiblings fetch oneOwner.items firstPi)).Nodup := by
  intro fetch
  have blob : listed fetch oneOwner.items = [member unpaddedFirst none, member urlSafeSecond none,
      member (Base64.encode secondPi) none] := listed_oneBlob _
  have own : decodeB64Any (member unpaddedFirst none).remoteEpk = firstPi := decode_unpaddedFirst
  have keptBlob : kept fetch firstPi oneOwner.items = [member unpaddedFirst none,
      member urlSafeSecond none, member (Base64.encode secondPi) none] :=
    kept_oneBlob (stillMember_cons own _)
  -- both spellings of the second key are discovered
  have first (epk : String) (mem : ∃ m ∈ listed fetch oneOwner.items, m.remoteEpk = epk)
      (other : decodeB64Any epk = secondPi) :
      ⟨labelIn (listed fetch oneOwner.items) epk, epk⟩ ∈
        discoverSiblings fetch oneOwner.items firstPi := by
    rw [mem_discoverSiblings]
    dsimp only
    rw [other]
    exact ⟨mem, firstPi_ne_secondPi.symm, rfl⟩
  have urlSafe := first urlSafeSecond ⟨member urlSafeSecond none, by rw [blob]; exact .tail _ (.head _), rfl⟩
    decode_urlSafeSecond
  have standard := first (Base64.encode secondPi)
    ⟨member (Base64.encode secondPi) none, by rw [blob]; exact .tail _ (.tail _ (.head _)), rfl⟩
    (decodeB64Any_encode secondPi)
  let reportedFirst : SiblingInfo :=
    ⟨labelIn (kept fetch firstPi oneOwner.items) unpaddedFirst, unpaddedFirst⟩
  have isFirst : decodeB64Any reportedFirst.pcPubkey = firstPi := decode_unpaddedFirst
  refine ⟨⟨_, urlSafe, decode_urlSafeSecond, ?_⟩, ⟨reportedFirst, ?_, isFirst, ?_⟩, ?_⟩
  · -- No member has a nickname, so that both labels begin the spellings.
    have unnamed : ∀ m ∈ listed fetch oneOwner.items, MeshMember.label m = none := by
      rw [blob]
      decide
    have keyless : ∀ entry ∈ keyed (listed fetch oneOwner.items), entry.2 = none :=
      List.forall_mem_map.mpr unnamed
    have spellless : ∀ entry ∈ spelled (listed fetch oneOwner.items), entry.2 = none :=
      List.forall_mem_map.mpr unnamed
    rw [discoverSelfLabel_eq, firstValue_of_none keyless, labelIn, firstValue_of_none spellless]
    intro same
    have starts := congrArg List.head? (String.ofList_injective same)
    rw [urlSafeSecond_eq, Base64.encode, String.toList_ofList, String.toList_ofList] at starts
    have first : '_' = Base64.letter 63 := Option.some.inj starts
    have found : Base64.digit? (Base64.letter 63) = some 63 := Base64.digit?_letter (by decide)
    rw [← first, Base64.digit?, Base64.alphabet_eq] at found
    exact absurd found (by decide)
  · rw [mem_reported oneOwner.distinct, keptBlob]
    refine ⟨⟨member unpaddedFirst none, .head _, rfl⟩, ?_, by rw [← keptBlob]⟩
    change unpaddedFirst ≠ Base64.encode firstPi
    rw [unpaddedFirst_eq]
    exact ofList_ne_encode rfl rfl
  · exact fun mem => (mem_discoverSiblings.mp mem).2.1 isFirst
  · intro distinct
    have same := eq_of_nodup_keysOf distinct urlSafe standard
      (congrArg List.length decode_urlSafeSecond)
      (decode_urlSafeSecond.trans (decodeB64Any_encode secondPi).symm)
    have spelling : urlSafeSecond = Base64.encode secondPi := congrArg SiblingInfo.pcPubkey same
    rw [urlSafeSecond_eq] at spelling
    exact ofList_ne_encode rfl rfl spelling

end OutpostPi.Pi.MeshLabels
