import Mathlib.Logic.Function.Basic
import OutpostPi.Lib.Base64
import OutpostPi.Lib.Machine
import OutpostPi.Lib.Map
import OutpostPi.Lib.OrderedMap
import OutpostPi.Pi.PairingProof

/-!
# Self-revocation

`SelfRevoke` sweeps over the Owners on the roster of this Pi. It fetches the published member list
of each from the relay and removes the Owner when the list does not name this Pi. The versions
that it has seen live in memory, so that a restart forgets them.

An Owner pairs, saves and removes members on its own device and publishes the list that it has
read; the relay keeps the newest version. A published list may therefore have been read before
the latest pairing. `removed_only_after_revocation` says that an Owner is removed only after it
has removed this Pi, in runs where the list that decides was read after the Owner had saved the
latest pairing.

Owners are known by the standard spelling of their key, for the slot of the relay too.
-/

set_option autoImplicit false

namespace OutpostPi.Pi.SelfRevoke

open OutpostPi.Lib

/-! ## The component -/

/-- The bytes of a key in the standard or the url-safe spelling. -/
def decodeB64Any (s : String) : Bytes :=
  let normalized := s.toList.map fun c => if c = '-' then '+' else if c = '_' then '/' else c
  let padLen := (4 - normalized.length % 4) % 4
  Base64.decode (String.ofList (normalized ++ List.replicate padLen '='))

/-- A Pi in the list of an Owner. -/
structure MeshMember where
  remoteEpk : String
  relayUrl : String
  pairedAt : String
  nickname : Option String
  deriving DecidableEq

/-- What a sweep reads of a blob. -/
structure MeshHeader where
  version : Nat
  issuedAt : Nat
  ownerPk : Bytes
  members : List MeshMember
  deriving DecidableEq

/-- A member as it is remembered for the labels of the siblings. -/
structure RawMember where
  pcPubkey : String
  nickname : Option String
  deriving DecidableEq

/-- What the poller keeps in memory. -/
structure Memory where
  lastSeenVersion : Map String Nat
  membersByOwner : OrderedMap String (List RawMember)

/-- What a fresh process remembers. -/
def Memory.new : Memory := ⟨∅, .empty⟩

/-- Forget the members of Owners that are not on the roster. -/
def Memory.prune (memory : Memory) (owners : List String) : Memory :=
  { memory with
    membersByOwner := memory.membersByOwner.filterKeys fun cached => decide (cached ∈ owners) }

/-- The members of a blob, without empty nicknames. -/
def rawMembers (members : List MeshMember) : List RawMember :=
  members.map fun m => ⟨m.remoteEpk, m.nickname.filter fun nickname => nickname ≠ ""⟩

/-- A list of members names this Pi. -/
def stillMember (myPubkey : Bytes) (members : List MeshMember) : Bool :=
  members.any fun m => decodeB64Any m.remoteEpk = myPubkey

/-- What `_checkOwner` does with a verified header, and whether it goes on to remove the Owner. -/
def Memory.checkOwner (memory : Memory) (myPubkey : Bytes) (ownerEpk : String)
    (header : MeshHeader) : Memory × Bool :=
  if Base64.encode header.ownerPk ≠ ownerEpk then (memory, false)
  else
    let lastSeen := (memory.lastSeenVersion.lookup ownerEpk).getD 0
    if header.version < lastSeen then (memory, false)
    else
      let seen : Memory :=
        { lastSeenVersion := memory.lastSeenVersion.insert ownerEpk header.version
          membersByOwner := memory.membersByOwner.set ownerEpk (rawMembers header.members) }
      if stillMember myPubkey header.members then (seen, false)
      else ({ seen with membersByOwner := seen.membersByOwner.erase ownerEpk }, true)

/-! ## Owners and the relay -/

/-- A member list that an Owner has read. The pairing that the Owner had saved last is history. -/
structure Listing where
  members : List MeshMember
  savedAt : Option Nat
  deriving DecidableEq

/-- A published blob, with the listing that it was made from. -/
structure Blob where
  version : Nat
  issuedAt : Nat
  ownerPk : Bytes
  listing : Listing
  deriving DecidableEq

/-- The header of a blob. -/
def Blob.header (blob : Blob) : MeshHeader :=
  ⟨blob.version, blob.issuedAt, blob.ownerPk, blob.listing.members⟩

/-- An Owner: the members it lists now, the listings of its publications on their way, and the
slot of the relay. The rest is history: how often this Pi has paired with it, and at which of these
pairings it has last saved this Pi and last removed it. -/
structure Owner where
  listing : Listing
  publications : List Listing
  published : Option Blob
  pairings : Nat
  removedAt : Option Nat

/-- Save a member, in place of one of the same spelling. -/
def Owner.savePeer (owner : Owner) (myPubkey : Bytes) (member : MeshMember) : Owner :=
  let others := owner.listing.members.filter fun m => m.remoteEpk ≠ member.remoteEpk
  { owner with
    listing :=
      { members := others ++ [member]
        savedAt :=
          if decodeB64Any member.remoteEpk = myPubkey then some owner.pairings
          else owner.listing.savedAt } }

/-- The Owner takes a Pi off its list. -/
def Owner.deletePeer (owner : Owner) (myPubkey : Bytes) (remoteEpk : String) : Owner :=
  let members := owner.listing.members.filter fun m => m.remoteEpk ≠ remoteEpk
  { owner with
    listing := { owner.listing with members := members }
    removedAt :=
      if stillMember myPubkey owner.listing.members && !stillMember myPubkey members then
        some owner.pairings
      else owner.removedAt }

/-- Begin a publication: read the members. -/
def Owner.startPublish (owner : Owner) : Owner :=
  { owner with publications := owner.publications ++ [owner.listing] }

/-- A publication reaches the relay, which takes it if its version is newer. -/
def Owner.publish (owner : Owner) (ownerPk : Bytes) (index version issuedAt : Nat) :
    Option Owner :=
  owner.publications[index]?.map fun listing =>
    { owner with
      publications := owner.publications.eraseIdx index
      published :=
        if owner.published.all fun stored => decide (stored.version < version) then
          some ⟨version, issuedAt, ownerPk, listing⟩
        else owner.published }

/-- The answer of the relay. -/
def Owner.get (owner : Owner) (since : Option Nat) : Option Blob :=
  owner.published.filter fun stored => since.all fun version => version < stored.version

/-! ## Sweeps -/

/-- Where a sweep is. -/
inductive Stage
  | listing
  | checking (rest : List String)
  | getting (ownerEpk : String) (since : Option Nat) (rest : List String)
  | verifying (ownerEpk : String) (blob : Blob) (rest : List String)
  | removing (ownerEpk : String) (blob : Blob) (rest : List String)
  deriving DecidableEq

/-- An Owner that a sweep has removed from the roster: at which pairing, and at which pairing the
Owner had last removed this Pi. -/
structure Removal where
  ownerEpk : String
  pairing : Nat
  removedAt : Option Nat
  deriving DecidableEq

/-- The Owners, the Pi with its sweeps, and the history of removals. -/
structure World where
  owners : String → Owner
  roster : List String
  memory : Memory
  sweeps : Nat → Option Stage
  removals : List Removal

namespace World

/-- Put a sweep at a stage, or end it. -/
def goTo (w : World) (i : Nat) (stage : Option Stage) : World :=
  { w with sweeps := Function.update w.sweeps i stage }

@[simp] theorem sweeps_goTo_self (w : World) (i : Nat) (stage : Option Stage) :
    (w.goTo i stage).sweeps i = stage :=
  Function.update_self ..

theorem sweeps_goTo_of_ne (w : World) {i j : Nat} (differs : j ≠ i) (stage : Option Stage) :
    (w.goTo i stage).sweeps j = w.sweeps j :=
  Function.update_of_ne differs ..

/-- An Owner goes on. -/
def setOwner (w : World) (ownerEpk : String) (owner : Owner) : World :=
  { w with owners := Function.update w.owners ownerEpk owner }

/-- An Owner is put on the roster, once. -/
def addPeer (w : World) (ownerEpk : String) : World :=
  { w with roster := if ownerEpk ∈ w.roster then w.roster else w.roster ++ [ownerEpk] }

/-- Remove an Owner from the roster, for a sweep. -/
def removePeer (w : World) (ownerEpk : String) : World :=
  if ownerEpk ∈ w.roster then
    { w with
      roster := w.roster.filter fun epk => epk ≠ ownerEpk
      removals := w.removals ++
        [⟨ownerEpk, (w.owners ownerEpk).pairings, (w.owners ownerEpk).removedAt⟩] }
  else w

/-- Let a sweep go on. The flag says whether the awaited operation has succeeded; a failure
concerns one Owner, except for the listing of the Owners. -/
def resume (w : World) (myPubkey : Bytes) (i : Nat) (ok : Bool) : Stage → World
  | .listing =>
    if ok then
      { w.goTo i (some (.checking w.roster)) with memory := w.memory.prune w.roster }
    else w.goTo i none
  | .checking [] => w.goTo i none
  | .checking (ownerEpk :: rest) =>
    w.goTo i (some (.getting ownerEpk (w.memory.lastSeenVersion.lookup ownerEpk) rest))
  | .getting ownerEpk since rest =>
    match ok, (w.owners ownerEpk).get since with
    | true, some blob => w.goTo i (some (.verifying ownerEpk blob rest))
    | true, none => w.goTo i (some (.checking rest))
    | false, _ => w.goTo i (some (.checking rest))
  | .verifying ownerEpk blob rest =>
    let (memory, unlisted) := w.memory.checkOwner myPubkey ownerEpk blob.header
    let stage : Stage := if unlisted then .removing ownerEpk blob rest else .checking rest
    { w.goTo i (some stage) with memory := memory }
  | .removing ownerEpk _ rest =>
    let w := if ok then w.removePeer ownerEpk else w
    w.goTo i (some (.checking rest))

end World

/-! ## Runs -/

/-- What the Owners, the relay and the sweeps do. -/
inductive Label
  | pair (ownerEpk : String)
  | revokeDevice (ownerEpk : String)
  | savePeer (ownerEpk : String) (member : MeshMember)
  | deletePeer (ownerEpk remoteEpk : String)
  | startPublish (ownerEpk : String)
  | publish (ownerEpk : String) (index version issuedAt : Nat)
  | checkOnce (i : Nat)
  | resume (i : Nat) (ok : Bool)
  | restart
  deriving DecidableEq

section Runs

variable (myPubkey : Bytes)

/-- One step of the world. -/
def step (w : World) : Label → Option World
  | .pair ownerEpk =>
    let owner := w.owners ownerEpk
    some ((w.setOwner ownerEpk { owner with pairings := owner.pairings + 1 }).addPeer ownerEpk)
  | .revokeDevice ownerEpk =>
    some { w with roster := w.roster.filter fun epk => epk ≠ ownerEpk }
  | .savePeer ownerEpk member =>
    some (w.setOwner ownerEpk ((w.owners ownerEpk).savePeer myPubkey member))
  | .deletePeer ownerEpk remoteEpk =>
    some (w.setOwner ownerEpk ((w.owners ownerEpk).deletePeer myPubkey remoteEpk))
  | .startPublish ownerEpk => some (w.setOwner ownerEpk (w.owners ownerEpk).startPublish)
  | .publish ownerEpk index version issuedAt =>
    ((w.owners ownerEpk).publish (Base64.decode ownerEpk) index version issuedAt).map
      (w.setOwner ownerEpk)
  | .checkOnce i =>
    match w.sweeps i with
    | none => some (w.goTo i (some .listing))
    | some _ => none
  | .resume i ok => (w.sweeps i).map (w.resume myPubkey i ok)
  | .restart => some { w with memory := .new, sweeps := fun _ => none }

/-- This Pi has not been paired yet. What the Owners list and have published is arbitrary. -/
structure Initial (w : World) : Prop where
  unsaved : ∀ ownerEpk, (w.owners ownerEpk).listing.savedAt = none
  publications : ∀ ownerEpk, (w.owners ownerEpk).publications = []
  published : ∀ ownerEpk, ∀ blob ∈ (w.owners ownerEpk).published, blob.listing.savedAt = none
  roster : w.roster = []
  sweeps : ∀ i, w.sweeps i = none
  removals : w.removals = []

/-- Owners and sweeps interleave freely. -/
def machine : Machine World Label where
  Init := Initial
  step := step myPubkey

end Runs

/-! ## What a listing vouches for -/

section Vouched

variable {myPubkey : Bytes} {owner owner' : Owner} {listing : Listing}

/-- A listing that was read since the Owner saved the latest pairing names this Pi, unless the Owner
has removed it since. -/
structure Vouched (myPubkey : Bytes) (owner : Owner) (listing : Listing) : Prop where
  past : ∀ pairing ∈ listing.savedAt, pairing ≤ owner.pairings
  named : listing.savedAt = some owner.pairings →
    stillMember myPubkey listing.members = true ∨ owner.removedAt = some owner.pairings

/-- An Owner later on: after another pairing, or with what it has removed since the latest one. -/
def Follows (owner owner' : Owner) : Prop :=
  owner.pairings < owner'.pairings ∨
    owner'.pairings = owner.pairings ∧
      (owner.removedAt = some owner.pairings → owner'.removedAt = some owner.pairings)

/-- A listing goes on to vouch. A later pairing makes it an old one. -/
theorem Vouched.of_follows (vouched : Vouched myPubkey owner listing)
    (follows : Follows owner owner') : Vouched myPubkey owner' listing := by
  rcases follows with later | ⟨same, removed⟩
  · refine ⟨fun pairing saved => ?_, fun saved => ?_⟩
    · exact Nat.le_of_lt (Nat.lt_of_le_of_lt (vouched.past pairing saved) later)
    · exact absurd (vouched.past _ saved) (Nat.not_le.mpr later)
  · refine ⟨fun pairing saved => ?_, fun saved => ?_⟩
    · rw [same]
      exact vouched.past pairing saved
    · rw [same] at saved ⊢
      exact (vouched.named saved).imp_right removed

theorem vouched_of_unsaved (unsaved : listing.savedAt = none) : Vouched myPubkey owner listing := by
  refine ⟨fun pairing saved => ?_, fun saved => ?_⟩
  · rw [unsaved] at saved
    cases saved
  · rw [unsaved] at saved
    cases saved

/-- All listings of an Owner vouch. -/
structure Owner.Sound (myPubkey : Bytes) (owner : Owner) : Prop where
  listing : Vouched myPubkey owner owner.listing
  publications : ∀ listing ∈ owner.publications, Vouched myPubkey owner listing
  published : ∀ blob ∈ owner.published, Vouched myPubkey owner blob.listing

/-- An Owner that goes on and changes no listing of a publication. -/
theorem Owner.Sound.of_follows (sound : owner.Sound myPubkey) (follows : Follows owner owner')
    (listing : Vouched myPubkey owner' owner'.listing)
    (publications : owner'.publications = owner.publications)
    (published : owner'.published = owner.published) : owner'.Sound myPubkey := by
  refine ⟨listing, fun read mem => ?_, fun blob mem => ?_⟩
  · rw [publications] at mem
    exact (sound.publications read mem).of_follows follows
  · rw [published] at mem
    exact (sound.published blob mem).of_follows follows

theorem follows_pair (owner : Owner) :
    Follows owner { owner with pairings := owner.pairings + 1 } :=
  Or.inl (Nat.lt_succ_self _)

theorem Owner.Sound.pair (sound : owner.Sound myPubkey) :
    Owner.Sound myPubkey { owner with pairings := owner.pairings + 1 } :=
  sound.of_follows (follows_pair owner) (sound.listing.of_follows (follows_pair owner)) rfl rfl

theorem follows_savePeer (owner : Owner) (member : MeshMember) :
    Follows owner (owner.savePeer myPubkey member) :=
  Or.inr ⟨rfl, id⟩

/-- A saved member does not hide this Pi: a replaced entry has the same spelling. -/
theorem stillMember_savePeer {members : List MeshMember} {member : MeshMember}
    (named : stillMember myPubkey members = true) :
    stillMember myPubkey ((members.filter fun m => m.remoteEpk ≠ member.remoteEpk) ++ [member]) =
      true := by
  obtain ⟨m, mem, own⟩ := List.any_eq_true.mp named
  apply List.any_eq_true.mpr
  by_cases replaced : m.remoteEpk = member.remoteEpk
  · rw [replaced] at own
    exact ⟨member, by simp, own⟩
  · exact ⟨m, by simp [mem, replaced], own⟩

theorem Owner.Sound.savePeer (sound : owner.Sound myPubkey) (member : MeshMember) :
    (owner.savePeer myPubkey member).Sound myPubkey := by
  apply sound.of_follows (follows_savePeer owner member) _ rfl rfl
  by_cases own : decodeB64Any member.remoteEpk = myPubkey
  · refine ⟨fun pairing saved => ?_, fun _ => Or.inl ?_⟩
    · simp only [Owner.savePeer, own, if_true] at saved
      cases saved
      exact Nat.le_refl _
    · exact List.any_eq_true.mpr ⟨member, by simp [Owner.savePeer], decide_eq_true own⟩
  · refine ⟨fun pairing saved => ?_, fun saved => ?_⟩
    · simp only [Owner.savePeer, own, if_false] at saved
      exact sound.listing.past pairing saved
    · simp only [Owner.savePeer, own, if_false] at saved
      exact (sound.listing.named saved).imp_left stillMember_savePeer

theorem follows_deletePeer (myPubkey : Bytes) (owner : Owner) (remoteEpk : String) :
    Follows owner (owner.deletePeer myPubkey remoteEpk) := by
  refine Or.inr ⟨rfl, fun removed => ?_⟩
  rw [Owner.deletePeer]
  dsimp only
  split
  · rfl
  · exact removed

theorem Owner.Sound.deletePeer (sound : owner.Sound myPubkey) (remoteEpk : String) :
    (owner.deletePeer myPubkey remoteEpk).Sound myPubkey := by
  have follows := follows_deletePeer myPubkey owner remoteEpk
  apply sound.of_follows follows _ rfl rfl
  refine ⟨sound.listing.past, fun saved => ?_⟩
  rcases sound.listing.named saved with named | removed
  · -- this Pi was named: either it still is, or this is its removal
    simp only [Owner.deletePeer, named, Bool.true_and]
    cases stillMember myPubkey (owner.listing.members.filter fun m => m.remoteEpk ≠ remoteEpk) with
    | true => exact Or.inl rfl
    | false => exact Or.inr rfl
  · exact Or.inr (follows.elim (fun later => absurd later (Nat.lt_irrefl _)) fun h => h.2 removed)

theorem Owner.Sound.startPublish (sound : owner.Sound myPubkey) :
    owner.startPublish.Sound myPubkey := by
  have follows : Follows owner owner.startPublish := Or.inr ⟨rfl, id⟩
  refine ⟨sound.listing.of_follows follows, fun read mem => ?_, fun blob mem => ?_⟩
  · rcases List.mem_append.mp mem with earlier | now
    · exact (sound.publications read earlier).of_follows follows
    · obtain rfl := List.mem_singleton.mp now
      exact sound.listing.of_follows follows
  · exact (sound.published blob mem).of_follows follows

/-- A publication that reaches the relay brings a listing of its Owner. -/
theorem Owner.Sound.publish (sound : owner.Sound myPubkey) {ownerPk : Bytes}
    {index version issuedAt : Nat}
    (reached : owner.publish ownerPk index version issuedAt = some owner') :
    Follows owner owner' ∧ owner'.Sound myPubkey := by
  obtain ⟨read, found, rfl⟩ := Option.map_eq_some_iff.mp reached
  have mem := List.mem_of_getElem? found
  have follows : Follows owner
      { owner with
        publications := owner.publications.eraseIdx index
        published :=
          if owner.published.all fun stored => decide (stored.version < version) then
            some ⟨version, issuedAt, ownerPk, read⟩
          else owner.published } := Or.inr ⟨rfl, id⟩
  refine ⟨follows, sound.listing.of_follows follows, fun other left => ?_, fun blob stored => ?_⟩
  · exact (sound.publications other (List.mem_of_mem_eraseIdx left)).of_follows follows
  · dsimp only at stored
    split at stored
    · cases stored
      exact (sound.publications read mem).of_follows follows
    · exact (sound.published blob stored).of_follows follows

theorem Owner.Sound.get (sound : owner.Sound myPubkey) {since : Option Nat} {blob : Blob}
    (answered : owner.get since = some blob) : Vouched myPubkey owner blob.listing :=
  sound.published blob (Option.mem_filter_iff.mp answered).1

end Vouched

/-! ## Sweeps that judge by a current listing -/

section Sweeps

variable {myPubkey : Bytes} {w w' : World}

/-- The listing that a sweep holds, and its Owner. -/
def Stage.held : Stage → Option (String × Listing)
  | .verifying ownerEpk blob _ | .removing ownerEpk blob _ => some (ownerEpk, blob.listing)
  | .listing | .checking _ | .getting _ _ _ => none

/-- The sweep at a stage is about to remove an Owner that did not name this Pi. -/
def Stage.Judged (myPubkey : Bytes) : Stage → Prop
  | .removing _ blob _ => stillMember myPubkey blob.listing.members = false
  | .listing | .checking _ | .getting _ _ _ | .verifying _ _ _ => True

/-- Every listing vouches, and no removal was wrong. -/
structure Sound (myPubkey : Bytes) (w : World) : Prop where
  owners : ∀ ownerEpk, (w.owners ownerEpk).Sound myPubkey
  held : ∀ i, ∀ stage ∈ w.sweeps i, ∀ held ∈ stage.held,
    Vouched myPubkey (w.owners held.1) held.2
  judged : ∀ i, ∀ stage ∈ w.sweeps i, stage.Judged myPubkey
  removals : ∀ removal ∈ w.removals, removal.removedAt = some removal.pairing

variable {ownerEpk : String}

theorem Sound.setOwner {owner' : Owner} (sound : Sound myPubkey w)
    (follows : Follows (w.owners ownerEpk) owner') (sound' : owner'.Sound myPubkey) :
    Sound myPubkey (w.setOwner ownerEpk owner') := by
  refine ⟨fun other => ?_, fun i stage running held mem => ?_, sound.judged, sound.removals⟩
  · by_cases own : other = ownerEpk
    · subst own
      simpa [World.setOwner] using sound'
    · simpa [World.setOwner, own] using sound.owners other
  · have vouched := sound.held i stage running held mem
    by_cases own : held.1 = ownerEpk
    · rw [own] at vouched
      simpa [World.setOwner, own] using vouched.of_follows follows
    · simpa [World.setOwner, own] using vouched

theorem Sound.goTo {i : Nat} {stage : Option Stage} (sound : Sound myPubkey w)
    (held : ∀ next ∈ stage, ∀ held ∈ next.held, Vouched myPubkey (w.owners held.1) held.2)
    (judged : ∀ next ∈ stage, next.Judged myPubkey) : Sound myPubkey (w.goTo i stage) := by
  refine ⟨sound.owners, fun j next running => ?_, fun j next running => ?_, sound.removals⟩
  · by_cases own : j = i
    · subst own
      rw [World.sweeps_goTo_self] at running
      exact held next running
    · rw [World.sweeps_goTo_of_ne w own] at running
      exact sound.held j next running
  · by_cases own : j = i
    · subst own
      rw [World.sweeps_goTo_self] at running
      exact judged next running
    · rw [World.sweeps_goTo_of_ne w own] at running
      exact sound.judged j next running

/-- A stage that holds nothing. -/
theorem Sound.goToFree {i : Nat} {stage : Stage} (sound : Sound myPubkey w)
    (free : stage.held = none) (judged : stage.Judged myPubkey) :
    Sound myPubkey (w.goTo i (some stage)) := by
  apply sound.goTo
  · rintro next ⟨⟩ held mem
    rw [free] at mem
    cases mem
  · rintro next ⟨⟩
    exact judged

theorem Sound.stop {i : Nat} (sound : Sound myPubkey w) : Sound myPubkey (w.goTo i none) :=
  sound.goTo nofun nofun

theorem Sound.setMemory (sound : Sound myPubkey w) (memory : Memory) :
    Sound myPubkey { w with memory := memory } :=
  { sound with }

theorem Sound.setRoster (sound : Sound myPubkey w) (roster : List String) :
    Sound myPubkey { w with roster := roster } :=
  { sound with }

/-- A removal that is due: the listing does not name this Pi, and it was read since the Owner saved
the latest pairing. -/
theorem Sound.removePeer {listing : Listing} (sound : Sound myPubkey w)
    (vouched : Vouched myPubkey (w.owners ownerEpk) listing)
    (unlisted : stillMember myPubkey listing.members = false)
    (current : ownerEpk ∈ w.roster → listing.savedAt = some (w.owners ownerEpk).pairings) :
    Sound myPubkey (w.removePeer ownerEpk) := by
  rw [World.removePeer]
  split
  · next onRoster =>
    refine { sound with removals := fun removal mem => ?_ }
    rcases List.mem_append.mp mem with earlier | now
    · exact sound.removals removal earlier
    · obtain rfl := List.mem_singleton.mp now
      rcases vouched.named (current onRoster) with named | removed
      · rw [unlisted] at named
        cases named
      · exact removed
  · exact sound

theorem unlisted_of_checkOwner {memory : Memory} {header : MeshHeader}
    (due : (memory.checkOwner myPubkey ownerEpk header).2 = true) :
    stillMember myPubkey header.members = false := by
  rw [Memory.checkOwner] at due
  split at due
  · cases due
  · dsimp only at due
    split at due
    · cases due
    · split at due
      · cases due
      · next unlisted => exact Bool.eq_false_iff.mpr unlisted

/-- A sweep that is about to remove an Owner has judged by a listing that was read after the Owner
had saved the latest pairing. -/
def Stage.JudgesCurrent (w : World) : Stage → Prop
  | .removing ownerEpk blob _ =>
    ownerEpk ∈ w.roster → blob.listing.savedAt = some (w.owners ownerEpk).pairings
  | .listing | .checking _ | .getting _ _ _ | .verifying _ _ _ => True

instance (w : World) : (stage : Stage) → Decidable (stage.JudgesCurrent w)
  | .removing _ _ _ => inferInstanceAs (Decidable (_ → _ = _))
  | .listing | .checking _ | .getting _ _ _ | .verifying _ _ _ => isTrue trivial

/-- Whenever a sweep removes an Owner, it judges by a current listing. -/
def Current (w : World) : Label → Prop
  | .resume i true => ∀ stage ∈ w.sweeps i, stage.JudgesCurrent w
  | _ => True

instance (w : World) : (label : Label) → Decidable (Current w label)
  | .resume i true => inferInstanceAs (Decidable (∀ stage ∈ w.sweeps i, stage.JudgesCurrent w))
  | .resume _ false | .pair _ | .revokeDevice _ | .savePeer _ _ | .deletePeer _ _
  | .startPublish _ | .publish _ _ _ _ | .checkOnce _ | .restart => isTrue trivial

theorem Sound.resume {i : Nat} {ok : Bool} {stage : Stage} (sound : Sound myPubkey w)
    (running : w.sweeps i = some stage) (current : Current w (.resume i ok)) :
    Sound myPubkey (w.resume myPubkey i ok stage) := by
  -- each stage goes on with what it holds; only a removal rests on what was held
  cases stage with
  | listing =>
    cases ok with
    | true =>
      have next : Sound myPubkey (w.goTo i (some (.checking w.roster))) :=
        sound.goToFree rfl trivial
      exact next.setMemory _
    | false => exact sound.stop
  | checking rest =>
    cases rest with
    | nil => exact sound.stop
    | cons ownerEpk rest => exact sound.goToFree rfl trivial
  | getting ownerEpk since rest =>
    simp only [World.resume]
    split
    · next blob answered =>
      apply sound.goTo
      · rintro next ⟨⟩ held ⟨⟩
        exact (sound.owners ownerEpk).get answered
      · rintro next ⟨⟩
        trivial
    · exact sound.goToFree rfl trivial
    · exact sound.goToFree rfl trivial
  | verifying ownerEpk blob rest =>
    -- the blob in hand is one that the Owner has published
    have vouched := sound.held i _ running (ownerEpk, blob.listing) rfl
    cases due : (w.memory.checkOwner myPubkey ownerEpk blob.header).2 with
    | true =>
      simp only [World.resume, due, if_true]
      apply Sound.setMemory
      apply sound.goTo
      · rintro next ⟨⟩ held ⟨⟩
        exact vouched
      · rintro next ⟨⟩
        exact unlisted_of_checkOwner due
    | false =>
      simp only [World.resume, due, Bool.false_eq_true, if_false]
      apply Sound.setMemory
      exact sound.goToFree rfl trivial
  | removing ownerEpk blob rest =>
    have vouched := sound.held i _ running (ownerEpk, blob.listing) rfl
    have unlisted := sound.judged i _ running
    have removed : Sound myPubkey (if ok then w.removePeer ownerEpk else w) := by
      cases ok with
      | true => exact sound.removePeer vouched unlisted (current _ running)
      | false => exact sound
    have next : Sound myPubkey
        (World.goTo (if ok then w.removePeer ownerEpk else w) i (some (.checking rest))) :=
      removed.goToFree rfl trivial
    exact next

theorem Sound.step {label : Label} (sound : Sound myPubkey w) (current : Current w label)
    (taken : step myPubkey w label = some w') : Sound myPubkey w' := by
  cases label with
  | pair ownerEpk =>
    cases taken
    exact (sound.setOwner (follows_pair _) (sound.owners ownerEpk).pair).setRoster _
  | revokeDevice ownerEpk =>
    cases taken
    exact sound.setRoster _
  | savePeer ownerEpk member =>
    cases taken
    exact sound.setOwner (follows_savePeer _ member) ((sound.owners ownerEpk).savePeer member)
  | deletePeer ownerEpk remoteEpk =>
    cases taken
    exact sound.setOwner (follows_deletePeer myPubkey _ remoteEpk)
      ((sound.owners ownerEpk).deletePeer remoteEpk)
  | startPublish ownerEpk =>
    cases taken
    exact sound.setOwner (Or.inr ⟨rfl, id⟩) (sound.owners ownerEpk).startPublish
  | publish ownerEpk index version issuedAt =>
    obtain ⟨owner', published, rfl⟩ := Option.map_eq_some_iff.mp taken
    obtain ⟨follows, sound'⟩ := (sound.owners ownerEpk).publish published
    exact sound.setOwner follows sound'
  | checkOnce i =>
    simp only [SelfRevoke.step] at taken
    split at taken
    · cases taken
      exact sound.goToFree rfl trivial
    · cases taken
  | resume i ok =>
    obtain ⟨stage, running, rfl⟩ := Option.map_eq_some_iff.mp taken
    exact sound.resume running current
  | restart =>
    cases taken
    exact ⟨sound.owners, nofun, nofun, sound.removals⟩

theorem sound_of_initial (initial : Initial w) : Sound myPubkey w := by
  refine ⟨fun ownerEpk => ⟨?_, ?_, ?_⟩, ?_, ?_, ?_⟩
  · exact vouched_of_unsaved (initial.unsaved ownerEpk)
  · rw [initial.publications]
    exact nofun
  · exact fun blob stored => vouched_of_unsaved (initial.published ownerEpk blob stored)
  · intro i stage running
    rw [initial.sweeps] at running
    cases running
  · intro i stage running
    rw [initial.sweeps] at running
    cases running
  · rw [initial.removals]
    exact nofun

/-- In a run whose sweeps judge by current listings, an Owner is removed only if it has removed this
Pi after the latest pairing. -/
theorem removed_only_after_revocation
    (reached : (machine myPubkey).ReachableUnder Current w) :
    ∀ removal ∈ w.removals, removal.removedAt = some removal.pairing := by
  have sound : Sound myPubkey w := by
    refine reached.invariant (fun t initial => sound_of_initial initial) ?_
    exact fun t label t' sound current taken => sound.step current taken
  exact sound.removals

end Sweeps

/-! ## One Owner -/

/-- The key of this Pi. -/
def thisPi : Bytes := List.replicate 32 1

/-- The key of an Owner. -/
def ownerKey : Bytes := List.replicate 32 2

/-- A member with a key. -/
def memberOf (key : Bytes) : MeshMember where
  remoteEpk := Base64.encode key
  relayUrl := "wss://relay"
  pairedAt := "2026-01-01T00:00:00Z"
  nickname := none

/-- An Owner that has paired with another Pi before, and has published that. -/
def otherwisePaired : Owner where
  listing := ⟨[memberOf (List.replicate 32 3)], none⟩
  publications := []
  published := some ⟨1, 0, ownerKey, ⟨[memberOf (List.replicate 32 3)], none⟩⟩
  pairings := 0
  removedAt := none

/-- This Pi before its first pairing. -/
def unpaired : World where
  owners := fun _ => otherwisePaired
  roster := []
  memory := .new
  sweeps := fun _ => none
  removals := []

theorem initial_unpaired : Initial unpaired := by
  refine ⟨fun _ => rfl, fun _ => rfl, fun _ blob stored => ?_, rfl, fun _ => rfl, rfl⟩
  cases stored
  rfl

/-- A pairing that is published, then a removal that is published, and a sweep. -/
theorem removed_only_after_revocation_once :
    ∃ w, (machine thisPi).ReachableUnder Current w ∧
      ⟨Base64.encode ownerKey, 1, some 1⟩ ∈ w.removals ∧
      ∀ removal ∈ w.removals, removal.removedAt = some removal.pairing := by
  let ownerEpk := Base64.encode ownerKey
  let schedule : List Label :=
    [.pair ownerEpk, .savePeer ownerEpk (memberOf thisPi), .startPublish ownerEpk,
      .publish ownerEpk 0 2 100, .deletePeer ownerEpk (Base64.encode thisPi),
      .startPublish ownerEpk, .publish ownerEpk 0 3 200, .checkOnce 0, .resume 0 true,
      .resume 0 true, .resume 0 true, .resume 0 true, .resume 0 true]
  have ran : ((machine thisPi).exec unpaired schedule).any (fun w =>
      decide (⟨Base64.encode ownerKey, 1, some 1⟩ ∈ w.removals)) = true := by decide +kernel
  have meets : (machine thisPi).Meets Current unpaired schedule := by decide +kernel
  obtain ⟨w, executed, removed⟩ := (Option.any_eq_true _ _).mp ran
  have reached : (machine thisPi).ReachableUnder Current w :=
    ⟨unpaired, initial_unpaired, Machine.runsTo_of_exec meets executed⟩
  exact ⟨w, reached, of_decide_eq_true removed, removed_only_after_revocation reached⟩

/-- The first pairing with an Owner that has published before. The sweep gets the list from before
the pairing, and removes the Owner although the relay has the new list by then. -/
theorem exists_removed_without_revocation :
    ∃ w, (machine thisPi).Reachable w ∧ w.roster = [] ∧
      w.removals = [⟨Base64.encode ownerKey, 1, none⟩] ∧
      (w.owners (Base64.encode ownerKey)).publications = [] ∧
      (w.owners (Base64.encode ownerKey)).published.map Blob.listing =
        some (w.owners (Base64.encode ownerKey)).listing ∧
      stillMember thisPi (w.owners (Base64.encode ownerKey)).listing.members = true := by
  let ownerEpk := Base64.encode ownerKey
  let schedule : List Label :=
    [.pair ownerEpk, .savePeer ownerEpk (memberOf thisPi), .checkOnce 0, .resume 0 true,
      .resume 0 true, .resume 0 true, .resume 0 true, .startPublish ownerEpk,
      .publish ownerEpk 0 2 100, .resume 0 true]
  have ran : ((machine thisPi).exec unpaired schedule).any (fun w =>
      decide (w.roster = [] ∧ w.removals = [⟨Base64.encode ownerKey, 1, none⟩] ∧
        (w.owners (Base64.encode ownerKey)).publications = [] ∧
        (w.owners (Base64.encode ownerKey)).published.map Blob.listing =
          some (w.owners (Base64.encode ownerKey)).listing ∧
        stillMember thisPi (w.owners (Base64.encode ownerKey)).listing.members = true)) =
          true := by decide +kernel
  obtain ⟨w, executed, facts⟩ := (Option.any_eq_true _ _).mp ran
  exact ⟨w, Machine.reachable_of_exec initial_unpaired executed, of_decide_eq_true facts⟩

end OutpostPi.Pi.SelfRevoke
