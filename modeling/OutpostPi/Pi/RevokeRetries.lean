import OutpostPi.Pi.SelfRevoke

/-!
# Revocations that fail

A sweep remembers the version of a list before it removes the Owner for it. When the removal
fails, the relay is asked for newer versions only, and answers that there is none: no later sweep
comes back to the list that excludes this Pi.

`Retrying` says that an Owner whose published list excludes this Pi is either being removed or
will be judged by that list again. `retrying_iff` says which steps keep it.
-/

set_option autoImplicit false

namespace OutpostPi.Pi.SelfRevoke

open OutpostPi.Lib

/-! ## Owners to be removed -/

/-- The relay serves a list that the Owner has signed and that excludes this Pi. -/
def Excluded (myPubkey : Bytes) (w : World) (ownerEpk : String) : Prop :=
  ∃ blob ∈ (w.owners ownerEpk).published, Base64.encode blob.ownerPk = ownerEpk ∧
    stillMember myPubkey blob.listing.members = false

/-- A sweep that asks the relay about the Owner now gets a list by which it goes on to remove
the Owner. -/
def Attempts (myPubkey : Bytes) (w : World) (ownerEpk : String) : Prop :=
  ∃ blob ∈ (w.owners ownerEpk).get (w.memory.lastSeenVersion.lookup ownerEpk),
    (w.memory.checkOwner myPubkey ownerEpk blob.header).2 = true

/-- A sweep is removing the Owner. -/
def Removing (w : World) (ownerEpk : String) : Prop :=
  ∃ i blob rest, w.sweeps i = some (.removing ownerEpk blob rest)

/-- An Owner on the roster that is to be removed is being removed, or will be. -/
def Retrying (myPubkey : Bytes) (w : World) : Prop :=
  ∀ ownerEpk ∈ w.roster, Excluded myPubkey w ownerEpk →
    Attempts myPubkey w ownerEpk ∨ Removing w ownerEpk

/-- What the relay serves is newer than what the sweeps remember. -/
def Unseen (w : World) (ownerEpk : String) : Prop :=
  ∀ blob ∈ (w.owners ownerEpk).published,
    ∀ version ∈ w.memory.lastSeenVersion.lookup ownerEpk, version < blob.version

/-- A removal that fails is of an Owner that is not on the roster or not excluded any more, or
a newer list is served by now, or another sweep is removing the Owner too. A pairing is not with
an Owner whose exclusion of this Pi has been seen already. -/
def Retriable (myPubkey : Bytes) (w : World) : Label → Prop
  | .resume i false => ∀ stage ∈ w.sweeps i,
    match stage with
    | .removing ownerEpk _ _ =>
      ownerEpk ∈ w.roster → Excluded myPubkey w ownerEpk →
        Unseen w ownerEpk ∨ Removing (w.goTo i none) ownerEpk
    | _ => True
  | .pair ownerEpk => Excluded myPubkey w ownerEpk → ownerEpk ∈ w.roster ∨
    Unseen w ownerEpk ∨ Removing w ownerEpk
  | _ => True

section

variable {myPubkey : Bytes} {w w' : World} {ownerEpk : String}

/-- A current list of the Owner is remembered, and this Pi has to be on it. -/
theorem checkOwner_current (myPubkey : Bytes) {memory : Memory} {header : MeshHeader}
    (signed : Base64.encode header.ownerPk = ownerEpk)
    (current : ¬ header.version < (memory.lastSeenVersion.lookup ownerEpk).getD 0) :
    (memory.checkOwner myPubkey ownerEpk header).1.lastSeenVersion =
        memory.lastSeenVersion.insert ownerEpk header.version ∧
      (memory.checkOwner myPubkey ownerEpk header).2 =
        !stillMember myPubkey header.members := by
  rw [Memory.checkOwner, if_neg (not_not.mpr signed), if_neg current]
  dsimp only
  cases stillMember myPubkey header.members <;> exact ⟨rfl, rfl⟩

/-- Any other list is ignored. -/
theorem checkOwner_ignored {memory : Memory} {header : MeshHeader}
    (ignored : Base64.encode header.ownerPk ≠ ownerEpk ∨
      header.version < (memory.lastSeenVersion.lookup ownerEpk).getD 0) :
    memory.checkOwner myPubkey ownerEpk header = (memory, false) := by
  rw [Memory.checkOwner]
  split
  · rfl
  · next signed =>
    exact if_pos (ignored.resolve_left signed)

/-- The list is judged again exactly when it is newer than what is remembered. -/
theorem attempts_iff (excluded : Excluded myPubkey w ownerEpk) :
    Attempts myPubkey w ownerEpk ↔ Unseen w ownerEpk := by
  obtain ⟨blob, published, signed, unlisted⟩ := excluded
  constructor
  · rintro ⟨other, served, -⟩ stored stored' version remembered
    obtain ⟨is, newer⟩ := Option.mem_filter_iff.mp served
    obtain rfl := Option.mem_unique stored' is
    rw [Option.mem_def.mp remembered] at newer
    simpa using newer
  · intro unseen
    refine ⟨blob, Option.mem_filter_iff.mpr ⟨published, ?_⟩, ?_⟩
    · cases remembered : w.memory.lastSeenVersion.lookup ownerEpk with
      | none => rfl
      | some version => simpa using unseen blob published version remembered
    · have current : ¬ blob.header.version <
          (w.memory.lastSeenVersion.lookup ownerEpk).getD 0 := by
        cases remembered : w.memory.lastSeenVersion.lookup ownerEpk with
        | none => exact Nat.not_lt_zero _
        | some version =>
          exact Nat.not_lt.mpr (Nat.le_of_lt (unseen blob published version remembered))
      rw [(checkOwner_current myPubkey signed current).2]
      exact congrArg not unlisted

/-- `Retrying`, by what is remembered. -/
def Due (myPubkey : Bytes) (w : World) : Prop :=
  ∀ ownerEpk ∈ w.roster, Excluded myPubkey w ownerEpk → Unseen w ownerEpk ∨ Removing w ownerEpk

theorem retrying_iff_due : Retrying myPubkey w ↔ Due myPubkey w := by
  constructor
  · intro retrying ownerEpk onRoster excluded
    exact (retrying ownerEpk onRoster excluded).imp_left (attempts_iff excluded).mp
  · intro due ownerEpk onRoster excluded
    exact (due ownerEpk onRoster excluded).imp_left (attempts_iff excluded).mpr

/-! ## Versions -/

/-- No version that is remembered, or held by a sweep, is newer than the one that is served, and
a version is served with one list only. -/
structure Versioned (w : World) : Prop where
  remembered : ∀ ownerEpk, ∀ version ∈ w.memory.lastSeenVersion.lookup ownerEpk,
    ∃ blob ∈ (w.owners ownerEpk).published, version ≤ blob.version
  held : ∀ i ownerEpk blob rest, w.sweeps i = some (.verifying ownerEpk blob rest) →
    ∃ served ∈ (w.owners ownerEpk).published, blob.version < served.version ∨ blob = served

namespace Versioned

/-- An Owner goes on, and serves what it has served or something newer. -/
theorem setOwner {owner : Owner} (versioned : Versioned w)
    (later : ∀ blob ∈ (w.owners ownerEpk).published,
      ∃ served ∈ owner.published, blob.version < served.version ∨ blob = served) :
    Versioned (w.setOwner ownerEpk owner) := by
  have serves : ∀ other, ∀ blob ∈ (w.owners other).published,
      ∃ served ∈ ((w.setOwner ownerEpk owner).owners other).published,
        blob.version < served.version ∨ blob = served := by
    intro other blob stored
    by_cases own : other = ownerEpk
    · subst own
      simpa [World.setOwner] using later blob stored
    · simp only [World.setOwner, Function.update_of_ne own]
      exact ⟨blob, stored, Or.inr rfl⟩
  constructor
  · intro other version remembered
    obtain ⟨blob, stored, le⟩ := versioned.remembered other version remembered
    obtain ⟨served, now, newer | rfl⟩ := serves other blob stored
    · exact ⟨served, now, Nat.le_of_lt (Nat.lt_of_le_of_lt le newer)⟩
    · exact ⟨blob, now, le⟩
  · intro i other blob rest running
    obtain ⟨served, stored, before⟩ := versioned.held i other blob rest running
    obtain ⟨served', now, newer | rfl⟩ := serves other served stored
    · refine ⟨served', now, Or.inl ?_⟩
      rcases before with older | rfl
      · exact Nat.lt_trans older newer
      · exact newer
    · exact ⟨served, now, before⟩

/-- A sweep goes on. -/
theorem goTo {i : Nat} {stage : Option Stage} (versioned : Versioned w)
    (held : ∀ ownerEpk blob rest, stage = some (.verifying ownerEpk blob rest) →
      ∃ served ∈ (w.owners ownerEpk).published, blob.version < served.version ∨ blob = served) :
    Versioned (w.goTo i stage) := by
  refine ⟨versioned.remembered, ?_⟩
  intro j ownerEpk blob rest running
  by_cases own : j = i
  · subst own
    rw [World.sweeps_goTo_self] at running
    exact held ownerEpk blob rest running
  · rw [World.sweeps_goTo_of_ne w own] at running
    exact versioned.held j ownerEpk blob rest running

/-- A list that is judged is remembered at its own version, which is served or older. -/
theorem checkOwner {i : Nat} {blob : Blob} {rest : List String} (versioned : Versioned w)
    (running : w.sweeps i = some (.verifying ownerEpk blob rest)) :
    Versioned { w with memory := (w.memory.checkOwner myPubkey ownerEpk blob.header).1 } := by
  refine ⟨?_, versioned.held⟩
  intro other version remembered
  by_cases ignored : Base64.encode blob.header.ownerPk ≠ ownerEpk ∨
      blob.header.version < (w.memory.lastSeenVersion.lookup ownerEpk).getD 0
  · simp only [checkOwner_ignored ignored] at remembered
    exact versioned.remembered other version remembered
  rw [not_or, not_not] at ignored
  have memory := (checkOwner_current myPubkey ignored.1 ignored.2).1
  simp only [memory] at remembered
  by_cases own : other = ownerEpk
  · subst own
    rw [AList.lookup_insert] at remembered
    cases remembered
    obtain ⟨served, stored, older | rfl⟩ := versioned.held i _ blob rest running
    · exact ⟨served, stored, Nat.le_of_lt older⟩
    · exact ⟨blob, stored, Nat.le_refl _⟩
  · rw [AList.lookup_insert_ne own] at remembered
    exact versioned.remembered other version remembered

theorem resume {i : Nat} {ok : Bool} {stage : Stage} (versioned : Versioned w)
    (running : w.sweeps i = some stage) : Versioned (w.resume myPubkey i ok stage) := by
  cases stage with
  | listing =>
    cases ok with
    | true =>
      have next : Versioned (w.goTo i (some (.checking w.roster))) := versioned.goTo (by rintro _ _ _ ⟨⟩)
      exact ⟨next.remembered, next.held⟩
    | false => exact versioned.goTo (by rintro _ _ _ ⟨⟩)
  | checking rest =>
    cases rest with
    | nil => exact versioned.goTo (by rintro _ _ _ ⟨⟩)
    | cons ownerEpk rest => exact versioned.goTo (by rintro _ _ _ ⟨⟩)
  | getting ownerEpk since rest =>
    simp only [World.resume]
    split
    · next blob answered =>
      apply versioned.goTo
      rintro _ _ _ ⟨⟩
      exact ⟨blob, (Option.mem_filter_iff.mp answered).1, Or.inr rfl⟩
    · exact versioned.goTo (by rintro _ _ _ ⟨⟩)
    · exact versioned.goTo (by rintro _ _ _ ⟨⟩)
  | verifying ownerEpk blob rest =>
    have judged : Versioned
        { w with memory := (w.memory.checkOwner myPubkey ownerEpk blob.header).1 } :=
      versioned.checkOwner running
    simp only [World.resume]
    split
    · exact judged.goTo (by rintro _ _ _ ⟨⟩)
    · exact judged.goTo (by rintro _ _ _ ⟨⟩)
  | removing ownerEpk blob rest =>
    have removed : Versioned (if ok then w.removePeer ownerEpk else w) := by
      split
      · rw [World.removePeer]
        split
        · exact ⟨versioned.remembered, versioned.held⟩
        · exact versioned
      · exact versioned
    exact removed.goTo (by rintro _ _ _ ⟨⟩)

theorem step {label : Label} (versioned : Versioned w)
    (taken : step myPubkey w label = some w') : Versioned w' := by
  have same : ∀ ownerEpk, ∀ blob ∈ (w.owners ownerEpk).published,
      ∃ served ∈ (w.owners ownerEpk).published, blob.version < served.version ∨ blob = served :=
    fun _ blob stored => ⟨blob, stored, Or.inr rfl⟩
  cases label with
  | pair ownerEpk =>
    cases taken
    have next : Versioned (w.setOwner ownerEpk
        { w.owners ownerEpk with pairings := (w.owners ownerEpk).pairings + 1 }) :=
      versioned.setOwner (same ownerEpk)
    exact ⟨next.remembered, next.held⟩
  | revokeDevice ownerEpk =>
    cases taken
    exact ⟨versioned.remembered, versioned.held⟩
  | savePeer ownerEpk member =>
    cases taken
    exact versioned.setOwner (same ownerEpk)
  | deletePeer ownerEpk remoteEpk =>
    cases taken
    exact versioned.setOwner (same ownerEpk)
  | startPublish ownerEpk =>
    cases taken
    exact versioned.setOwner (same ownerEpk)
  -- a published blob is newer than the one that it replaces
  | publish ownerEpk index version issuedAt =>
    obtain ⟨owner', published, rfl⟩ := Option.map_eq_some_iff.mp taken
    obtain ⟨read, -, rfl⟩ := Option.map_eq_some_iff.mp published
    refine versioned.setOwner fun blob stored => ?_
    dsimp only
    split
    · next newer =>
      rw [Option.mem_def.mp stored] at newer
      exact ⟨_, rfl, Or.inl (of_decide_eq_true newer)⟩
    · exact same ownerEpk blob stored
  | checkOnce i =>
    simp only [SelfRevoke.step] at taken
    split at taken
    · cases taken
      exact versioned.goTo (by rintro _ _ _ ⟨⟩)
    · cases taken
  | resume i ok =>
    obtain ⟨stage, running, rfl⟩ := Option.map_eq_some_iff.mp taken
    exact versioned.resume running
  | restart =>
    cases taken
    exact ⟨by rintro _ _ ⟨⟩, by rintro _ _ _ _ ⟨⟩⟩

theorem init (initial : Initial w) (forgotten : w.memory = .new) : Versioned w := by
  constructor
  · intro ownerEpk version remembered
    rw [forgotten] at remembered
    cases remembered
  · intro i ownerEpk blob rest running
    rw [initial.sweeps] at running
    cases running

end Versioned

/-! ## Steps -/

theorem owners_setOwner_of_ne (w : World) {other : String} (differs : other ≠ ownerEpk)
    (owner : Owner) : (w.setOwner ownerEpk owner).owners other = w.owners other :=
  Function.update_of_ne differs ..

theorem Excluded.congr (excluded : Excluded myPubkey w' ownerEpk)
    (same : (w'.owners ownerEpk).published = (w.owners ownerEpk).published) :
    Excluded myPubkey w ownerEpk := by
  rw [Excluded, ← same]
  exact excluded

theorem Unseen.congr (unseen : Unseen w ownerEpk)
    (same : (w'.owners ownerEpk).published = (w.owners ownerEpk).published)
    (memory : w'.memory.lastSeenVersion = w.memory.lastSeenVersion) : Unseen w' ownerEpk := by
  rw [Unseen, same, memory]
  exact unseen

namespace Due

/-- A step that serves nothing new and sees nothing new, and ends no removal. -/
theorem congr (due : Due myPubkey w) (roster : ∀ ownerEpk ∈ w'.roster, ownerEpk ∈ w.roster)
    (published : ∀ ownerEpk, (w'.owners ownerEpk).published = (w.owners ownerEpk).published)
    (memory : w'.memory.lastSeenVersion = w.memory.lastSeenVersion)
    (removing : ∀ ownerEpk ∈ w'.roster, Removing w ownerEpk → Removing w' ownerEpk) :
    Due myPubkey w' := by
  intro ownerEpk onRoster excluded
  have same := published ownerEpk
  rcases due ownerEpk (roster ownerEpk onRoster) (excluded.congr same) with unseen | running
  · exact Or.inl (unseen.congr same memory)
  · exact Or.inr (removing ownerEpk onRoster running)

/-- What the Owner has published stays. -/
theorem setOwner {owner : Owner} (due : Due myPubkey w)
    (published : owner.published = (w.owners ownerEpk).published) :
    Due myPubkey (w.setOwner ownerEpk owner) := by
  refine due.congr (fun _ => id) ?_ rfl (fun _ _ => id)
  intro other
  by_cases own : other = ownerEpk
  · subst own
    simpa [World.setOwner] using published
  · exact congrArg Owner.published (owners_setOwner_of_ne w own owner)

/-- A sweep that was removing no Owner goes on. -/
theorem goTo {i : Nat} {stage : Option Stage} (due : Due myPubkey w)
    (idle : ∀ ownerEpk blob rest, w.sweeps i ≠ some (.removing ownerEpk blob rest)) :
    Due myPubkey (w.goTo i stage) := by
  refine due.congr (fun _ => id) (fun _ => rfl) rfl ?_
  rintro ownerEpk - ⟨j, blob, rest, running⟩
  refine ⟨j, blob, rest, ?_⟩
  rw [World.sweeps_goTo_of_ne w, running]
  rintro rfl
  exact idle ownerEpk blob rest running

/-- A list that reaches the relay is newer than anything remembered. -/
theorem publish {owner : Owner} {ownerPk : Bytes} {index version issuedAt : Nat}
    (due : Due myPubkey w) (versioned : Versioned w)
    (published : (w.owners ownerEpk).publish ownerPk index version issuedAt = some owner) :
    Due myPubkey (w.setOwner ownerEpk owner) := by
  obtain ⟨read, -, is⟩ := Option.map_eq_some_iff.mp published
  by_cases newer : (w.owners ownerEpk).published.all fun stored => decide (stored.version < version)
  · intro other onRoster excluded
    by_cases own : other = ownerEpk
    · subst own
      left
      intro blob stored seen remembered
      obtain ⟨before, was, le⟩ := versioned.remembered _ seen remembered
      simp only [World.setOwner, Function.update_self, ← is, if_pos newer] at stored
      cases stored
      rw [Option.mem_def.mp was] at newer
      exact Nat.lt_of_le_of_lt le (of_decide_eq_true newer)
    · have same := congrArg Owner.published (owners_setOwner_of_ne w own owner)
      exact (due other onRoster (excluded.congr same)).imp_left fun unseen =>
        unseen.congr same rfl
  · apply due.setOwner
    rw [← is]
    exact if_neg newer

/-- A list by which the Owner is to be removed leads to its removal; any older one is followed by
the one that is served. -/
theorem verifying {i : Nat} {blob : Blob} {rest : List String} {ok : Bool}
    (due : Due myPubkey w) (versioned : Versioned w)
    (running : w.sweeps i = some (.verifying ownerEpk blob rest)) :
    Due myPubkey (w.resume myPubkey i ok (.verifying ownerEpk blob rest)) := by
  have idle : ∀ other held rest', w.sweeps i ≠ some (.removing other held rest') := by
    intro other held rest' impossible
    cases running.symm.trans impossible
  -- a blob of another Owner, or an older one, changes nothing
  by_cases ignored : Base64.encode blob.header.ownerPk ≠ ownerEpk ∨
      blob.header.version < (w.memory.lastSeenVersion.lookup ownerEpk).getD 0
  · rw [World.resume, checkOwner_ignored ignored]
    exact due.goTo idle
  rw [not_or, not_not] at ignored
  obtain ⟨memory, unlisted⟩ := checkOwner_current myPubkey ignored.1 ignored.2
  rw [World.resume]
  generalize w.memory.checkOwner myPubkey ownerEpk blob.header = result at memory unlisted
  obtain ⟨next, removes⟩ := result
  dsimp only at memory unlisted ⊢
  intro other onRoster excluded
  by_cases own : other = ownerEpk
  · subst own
    obtain ⟨served, stored, older | rfl⟩ := versioned.held i _ blob rest running
    · left
      intro stored' is version remembered
      obtain rfl := Option.mem_unique stored is
      dsimp only at remembered
      rw [memory, AList.lookup_insert] at remembered
      cases remembered
      exact older
    · -- the list that was judged is the one that excludes this Pi
      right
      obtain ⟨served, stored', -, excludes⟩ := excluded
      obtain rfl := Option.mem_unique stored stored'
      refine ⟨i, blob, rest, ?_⟩
      rw [unlisted, show stillMember myPubkey blob.header.members = false from excludes]
      exact World.sweeps_goTo_self ..
  -- the other Owners are as they were
  · have moved : Due myPubkey (w.goTo i
        (some (if removes then .removing ownerEpk blob rest else .checking rest))) :=
      due.goTo idle
    rcases moved other onRoster excluded with unseen | removing
    · left
      intro served stored version remembered
      dsimp only at remembered
      rw [memory, AList.lookup_insert_ne own] at remembered
      exact unseen served stored version remembered
    · exact Or.inr removing

end Due

/-- After a sweep has ended a removal, the others are left. -/
theorem removing_goTo_iff {i : Nat} {stage : Option Stage}
    (idle : ∀ blob rest, stage ≠ some (.removing ownerEpk blob rest)) :
    Removing (w.goTo i stage) ownerEpk ↔
      ∃ j, j ≠ i ∧ ∃ blob rest, w.sweeps j = some (.removing ownerEpk blob rest) := by
  constructor
  · rintro ⟨j, blob, rest, running⟩
    by_cases own : j = i
    · subst own
      rw [World.sweeps_goTo_self] at running
      exact absurd running (idle blob rest)
    · rw [World.sweeps_goTo_of_ne w own] at running
      exact ⟨j, own, blob, rest, running⟩
  · rintro ⟨j, own, blob, rest, running⟩
    exact ⟨j, blob, rest, (World.sweeps_goTo_of_ne w own _).trans running⟩

/-- A sweep that ends the removal of one Owner ends no other. -/
theorem Removing.goTo {i : Nat} {other : String} {blob : Blob} {rest : List String}
    {stage : Option Stage} (removing : Removing w other)
    (running : w.sweeps i = some (.removing ownerEpk blob rest)) (differs : other ≠ ownerEpk) :
    Removing (w.goTo i stage) other := by
  obtain ⟨j, blob', rest', running'⟩ := removing
  refine ⟨j, blob', rest', (World.sweeps_goTo_of_ne w ?_ stage).trans running'⟩
  rintro rfl
  cases running.symm.trans running'
  exact differs rfl

/-- A removal that succeeds settles its Owner. -/
theorem Due.removed {i : Nat} {blob : Blob} {rest : List String} (due : Due myPubkey w)
    (running : w.sweeps i = some (.removing ownerEpk blob rest)) :
    Due myPubkey (w.resume myPubkey i true (.removing ownerEpk blob rest)) := by
  have moved : ∀ other ∈ w.roster, other ≠ ownerEpk → Excluded myPubkey w other →
      Unseen w other ∨ Removing (w.goTo i (some (.checking rest))) other := by
    intro other onRoster differs excluded
    exact (due other onRoster excluded).imp_right fun removing => removing.goTo running differs
  simp only [World.resume, if_true]
  rw [World.removePeer]
  split
  · intro other onRoster excluded
    obtain ⟨onRoster, differs⟩ := List.mem_filter.mp onRoster
    exact moved other onRoster (of_decide_eq_true differs) excluded
  · next gone =>
    intro other onRoster excluded
    exact moved other onRoster (fun same => gone (same ▸ onRoster)) excluded

/-- A removal that fails leaves its Owner to a newer list or to another sweep. -/
theorem due_failed_iff {i : Nat} {blob : Blob} {rest : List String} (due : Due myPubkey w)
    (running : w.sweeps i = some (.removing ownerEpk blob rest)) :
    Due myPubkey (w.resume myPubkey i false (.removing ownerEpk blob rest)) ↔
      (ownerEpk ∈ w.roster → Excluded myPubkey w ownerEpk →
        Unseen w ownerEpk ∨ Removing (w.goTo i none) ownerEpk) := by
  have same : Removing (w.goTo i (some (.checking rest))) ownerEpk ↔
      Removing (w.goTo i none) ownerEpk :=
    (removing_goTo_iff (by rintro _ _ ⟨⟩)).trans (removing_goTo_iff (by rintro _ _ ⟨⟩)).symm
  rw [← same]
  constructor
  · intro due' onRoster excluded
    exact due' ownerEpk onRoster excluded
  · intro kept other onRoster excluded
    by_cases own : other = ownerEpk
    · subst own
      exact kept onRoster excluded
    · exact (due other onRoster excluded).imp_right fun removing => removing.goTo running own

/-- A pairing adds its Owner to those that have to be heeded. -/
theorem due_pair_iff (due : Due myPubkey w) (taken : step myPubkey w (.pair ownerEpk) = some w') :
    Due myPubkey w' ↔
      (Excluded myPubkey w ownerEpk → ownerEpk ∈ w.roster ∨ Unseen w ownerEpk ∨
        Removing w ownerEpk) := by
  cases taken
  have published : ∀ other, ((((w.setOwner ownerEpk { w.owners ownerEpk with
      pairings := (w.owners ownerEpk).pairings + 1 }).addPeer ownerEpk).owners other).published) =
        (w.owners other).published := by
    intro other
    by_cases own : other = ownerEpk
    · subst own
      simp [World.addPeer, World.setOwner]
    · exact congrArg Owner.published (owners_setOwner_of_ne w own _)
  constructor
  · intro due' excluded
    by_cases onRoster : ownerEpk ∈ w.roster
    · exact Or.inl onRoster
    · have added := due' ownerEpk (by simp [World.addPeer, World.setOwner, onRoster])
        (excluded.congr (published ownerEpk).symm)
      exact Or.inr (added.imp_left fun unseen => unseen.congr (published ownerEpk).symm rfl)
  · intro heeded other onRoster excluded
    have before := excluded.congr (published other)
    have kept : Unseen w other ∨ Removing w other := by
      by_cases earlier : other ∈ w.roster
      · exact due other earlier before
      · have own : other = ownerEpk := by
          by_cases added : ownerEpk ∈ w.roster
          · simp [World.addPeer, World.setOwner, added, earlier] at onRoster
          · simpa [World.addPeer, World.setOwner, added, earlier] using onRoster
        subst own
        exact (heeded before).resolve_left earlier
    exact kept.imp_left fun unseen => unseen.congr (published other) rfl

/-- A sweep that is removing no Owner may go on in any way. -/
theorem retriable_of_idle {i : Nat} {ok : Bool} {stage : Stage}
    (running : w.sweeps i = some stage)
    (idle : ∀ ownerEpk blob rest, stage ≠ .removing ownerEpk blob rest) :
    Retriable myPubkey w (.resume i ok) := by
  cases ok with
  | true => trivial
  | false =>
    intro other is
    obtain rfl := Option.some.inj (is.symm.trans running)
    split
    · exact absurd rfl (idle _ _ _)
    · trivial

theorem due_resume_iff {i : Nat} {ok : Bool} {stage : Stage} (versioned : Versioned w)
    (due : Due myPubkey w) (running : w.sweeps i = some stage) :
    Due myPubkey (w.resume myPubkey i ok stage) ↔ Retriable myPubkey w (.resume i ok) := by
  have moves : (∀ ownerEpk blob rest, stage ≠ .removing ownerEpk blob rest) →
      ∀ next, Due myPubkey (w.goTo i next) := by
    intro idle next
    apply due.goTo
    intro ownerEpk blob rest impossible
    exact idle ownerEpk blob rest (Option.some.inj (running.symm.trans impossible))
  cases stage with
  -- a removal is where the list and this Pi part: it has to succeed, or stay due
  | removing ownerEpk blob rest =>
    cases ok with
    | true => exact iff_of_true (due.removed running) trivial
    | false =>
      rw [due_failed_iff due running, Retriable]
      constructor
      · intro kept other is
        obtain rfl := Option.some.inj (is.symm.trans running)
        exact kept
      · intro kept
        exact kept _ running
  | verifying ownerEpk blob rest =>
    exact iff_of_true (due.verifying versioned running) (retriable_of_idle running nofun)
  | listing =>
    have moves := moves nofun
    refine iff_of_true ?_ (retriable_of_idle running nofun)
    cases ok with
    | true => exact (moves _).congr (fun _ => id) (fun _ => rfl) rfl fun _ _ => id
    | false => exact moves none
  | checking rest =>
    have goes := moves nofun
    refine iff_of_true ?_ (retriable_of_idle running nofun)
    cases rest with
    | nil => exact goes none
    | cons ownerEpk rest => exact goes _
  | getting ownerEpk since rest =>
    have moves := moves nofun
    refine iff_of_true ?_ (retriable_of_idle running nofun)
    simp only [World.resume]
    split
    · exact moves _
    · exact moves _
    · exact moves _

/-- Each step keeps the Owners due exactly when it is retriable. -/
theorem due_step_iff {label : Label} (versioned : Versioned w) (due : Due myPubkey w)
    (taken : step myPubkey w label = some w') : Due myPubkey w' ↔ Retriable myPubkey w label := by
  cases label with
  | pair ownerEpk => exact due_pair_iff due taken
  | revokeDevice ownerEpk =>
    cases taken
    refine iff_of_true ?_ trivial
    exact due.congr (fun other onRoster => (List.mem_filter.mp onRoster).1) (fun _ => rfl) rfl
      fun _ _ => id
  | savePeer ownerEpk member =>
    cases taken
    exact iff_of_true (due.setOwner rfl) trivial
  | deletePeer ownerEpk remoteEpk =>
    cases taken
    exact iff_of_true (due.setOwner rfl) trivial
  | startPublish ownerEpk =>
    cases taken
    exact iff_of_true (due.setOwner rfl) trivial
  | publish ownerEpk index version issuedAt =>
    obtain ⟨owner', published, rfl⟩ := Option.map_eq_some_iff.mp taken
    exact iff_of_true (due.publish versioned published) trivial
  | checkOnce i =>
    simp only [SelfRevoke.step] at taken
    split at taken
    · next free =>
      cases taken
      refine iff_of_true (due.goTo ?_) trivial
      intro ownerEpk blob rest impossible
      cases free.symm.trans impossible
    · cases taken
  | resume i ok =>
    obtain ⟨stage, running, rfl⟩ := Option.map_eq_some_iff.mp taken
    exact due_resume_iff versioned due running
  | restart =>
    cases taken
    exact iff_of_true (fun _ _ _ => Or.inl (by intro _ _ _ known; cases known)) trivial

theorem retriable_of_disabled {label : Label} (disabled : step myPubkey w label = none) :
    Retriable myPubkey w label := by
  cases label with
  | pair ownerEpk => cases disabled
  | resume i ok =>
    have free := Option.map_eq_none_iff.mp disabled
    cases ok with
    | true => trivial
    | false =>
      intro stage is
      cases free.symm.trans is
  | _ => trivial

end

/-- In a run that starts with nothing remembered, every Owner on the roster whose published list
excludes this Pi is being removed, or will be judged by that list again, in every state exactly
when every step is retriable. -/
theorem retrying_iff {myPubkey : Bytes} {w : World} (initial : Initial w)
    (forgotten : w.memory = .new) (schedule : List Label) :
    (machine myPubkey).Throughout (Retrying myPubkey) w schedule ↔
      (machine myPubkey).Meets (Retriable myPubkey) w schedule := by
  have same : Retrying myPubkey = Due myPubkey := funext fun _ => propext retrying_iff_due
  rw [same]
  refine Machine.throughout_iff_meets_within (I := Versioned) ?_ ?_ ?_ ?_ ?_
  · intro t label t' versioned taken
    exact versioned.step taken
  · intro t label t' versioned due taken
    exact due_step_iff versioned due taken
  · intro t label disabled
    exact retriable_of_disabled disabled
  · exact Versioned.init initial forgotten
  · intro ownerEpk onRoster
    rw [initial.roster] at onRoster
    cases onRoster

/-- A sweep that is removing an Owner does so for a list that is not the newest any more. -/
def Stage.Outdated (w : World) : Stage → Prop
  | .removing ownerEpk _ _ => Unseen w ownerEpk
  | .listing | .checking _ | .getting _ _ _ | .verifying _ _ _ => True

/-- Removals fail only where a newer list is served by then, and pairings are with Owners whose
lists have not been seen. -/
def Prompt (w : World) : Label → Prop
  | .resume i ok => ok = true ∨ ∀ stage ∈ w.sweeps i, stage.Outdated w
  | .pair ownerEpk => Unseen w ownerEpk
  | _ => True

instance (w : World) (ownerEpk : String) : Decidable (Unseen w ownerEpk) :=
  inferInstanceAs (Decidable (∀ _ ∈ _, ∀ _ ∈ _, _ < _))

instance (w : World) : (stage : Stage) → Decidable (stage.Outdated w)
  | .removing ownerEpk _ _ => inferInstanceAs (Decidable (Unseen w ownerEpk))
  | .listing | .checking _ | .getting _ _ _ | .verifying _ _ _ => isTrue trivial

instance (w : World) : (label : Label) → Decidable (Prompt w label)
  | .resume i ok =>
    inferInstanceAs (Decidable (ok = true ∨ ∀ stage ∈ w.sweeps i, stage.Outdated w))
  | .pair ownerEpk => inferInstanceAs (Decidable (Unseen w ownerEpk))
  | .revokeDevice _ | .savePeer _ _ | .deletePeer _ _ | .startPublish _ | .publish _ _ _ _
  | .checkOnce _ | .restart => isTrue trivial

theorem Prompt.retriable {myPubkey : Bytes} (w : World) (label : Label) (prompt : Prompt w label) :
    Retriable myPubkey w label := by
  cases label with
  | resume i ok =>
    cases ok with
    | true => trivial
    | false =>
      rcases prompt with ⟨⟨⟩⟩ | outdated
      intro stage running
      have outdated := outdated stage running
      cases stage with
      | removing ownerEpk blob rest => exact fun _ _ => Or.inl outdated
      | _ => trivial
  | pair ownerEpk => exact fun _ => Or.inr (Or.inl prompt)
  | _ => trivial

/-- While a sweep is removing the Owner, the Owner publishes its list once more, and the removal
fails. The next sweep sees the newer list, and removes the Owner. -/
def retriedRemoval : List Label :=
  let ownerEpk := Base64.encode ownerKey
  [.pair ownerEpk, .checkOnce 0, .resume 0 true, .resume 0 true, .resume 0 true, .resume 0 true,
    .startPublish ownerEpk, .publish ownerEpk 0 2 100, .resume 0 false, .resume 0 true,
    .checkOnce 0, .resume 0 true, .resume 0 true, .resume 0 true, .resume 0 true, .resume 0 true]

theorem retrying_iff_prompt :
    (machine thisPi).Throughout (Retrying thisPi) unpaired retriedRemoval ∧
      ((machine thisPi).exec unpaired retriedRemoval).map World.roster = some [] := by
  have prompt : (machine thisPi).Meets Prompt unpaired retriedRemoval := by decide +kernel
  exact ⟨(retrying_iff initial_unpaired rfl _).mpr (prompt.mono Prompt.retriable),
    by decide +kernel⟩

/-! ## A removal that fails -/

/-- Only one sweep is concerned. -/
def Only (i : Nat) : World → Label → Prop
  | _, .checkOnce j | _, .resume j _ => j = i
  | _, _ => True

instance (i : Nat) (w : World) : (label : Label) → Decidable (Only i w label)
  | .checkOnce j | .resume j _ => inferInstanceAs (Decidable (j = i))
  | .pair _ | .revokeDevice _ | .savePeer _ _ | .deletePeer _ _ | .startPublish _
  | .publish _ _ _ _ | .restart => isTrue trivial

theorem sweeps_resume_of_ne {myPubkey : Bytes} {w : World} {i j : Nat} {ok : Bool} {stage : Stage}
    (differs : j ≠ i) : (w.resume myPubkey i ok stage).sweeps j = w.sweeps j := by
  cases stage with
  | listing => cases ok <;> exact World.sweeps_goTo_of_ne w differs _
  | checking rest => cases rest <;> exact World.sweeps_goTo_of_ne w differs _
  | getting ownerEpk since rest =>
    simp only [World.resume]
    split <;> exact World.sweeps_goTo_of_ne w differs _
  | verifying ownerEpk blob rest => exact World.sweeps_goTo_of_ne w differs _
  | removing ownerEpk blob rest =>
    refine (World.sweeps_goTo_of_ne _ differs _).trans ?_
    cases ok with
    | false => rfl
    | true =>
      simp only [if_true, World.removePeer]
      split <;> rfl

/-- The other sweeps stay as they are. -/
theorem sweeps_of_only {myPubkey : Bytes} {w w' : World} {i j : Nat} (differs : j ≠ i)
    (run : (machine myPubkey).RunsTo (Only i) w w') (free : w.sweeps j = none) :
    w'.sweeps j = none := by
  refine run.invariant (I := fun w => w.sweeps j = none) ?_ free
  intro t label t' free only taken
  cases label with
  | checkOnce k =>
    obtain rfl : k = i := only
    simp only [machine, step] at taken
    split at taken
    · cases taken
      exact (World.sweeps_goTo_of_ne t differs _).trans free
    · cases taken
  | resume k ok =>
    obtain rfl : k = i := only
    obtain ⟨stage, running, rfl⟩ := Option.map_eq_some_iff.mp taken
    exact (sweeps_resume_of_ne differs).trans free
  | publish ownerEpk index version issuedAt =>
    obtain ⟨owner', published, rfl⟩ := Option.map_eq_some_iff.mp taken
    exact free
  | restart =>
    cases taken
    rfl
  | _ =>
    cases taken
    exact free

/-- This Pi is paired, named by a published list, and removed from the next one. A sweep fails to
remove the Owner, and the sweep after it ends with the Owner on the roster. -/
def forgottenRemoval : List Label :=
  let ownerEpk := Base64.encode ownerKey
  [.pair ownerEpk, .savePeer ownerEpk (memberOf thisPi), .startPublish ownerEpk,
    .publish ownerEpk 0 2 100, .deletePeer ownerEpk (Base64.encode thisPi),
    .startPublish ownerEpk, .publish ownerEpk 0 3 200, .checkOnce 0, .resume 0 true,
    .resume 0 true, .resume 0 true, .resume 0 true, .resume 0 false, .resume 0 true,
    .checkOnce 0, .resume 0 true, .resume 0 true, .resume 0 true, .resume 0 true]

/-- A removal that has failed is not tried again. -/
theorem exists_forgotten_removal :
    ∃ schedule, ¬ (machine thisPi).Throughout (Retrying thisPi) unpaired schedule := by
  refine ⟨forgottenRemoval, fun throughout => ?_⟩
  have ran : ((machine thisPi).exec unpaired forgottenRemoval).any (fun w =>
      decide (Base64.encode ownerKey ∈ w.roster) && (w.sweeps 0).isNone &&
      ((w.owners (Base64.encode ownerKey)).get
        (w.memory.lastSeenVersion.lookup (Base64.encode ownerKey))).isNone &&
      (w.owners (Base64.encode ownerKey)).published.any fun blob =>
        decide (Base64.encode blob.ownerPk = Base64.encode ownerKey) &&
        !stillMember thisPi blob.listing.members) = true := by
    decide +kernel
  have meets : (machine thisPi).Meets (Only 0) unpaired forgottenRemoval := by decide +kernel
  obtain ⟨w, executed, facts⟩ := (Option.any_eq_true _ _).mp ran
  simp only [Bool.and_eq_true, decide_eq_true_eq, Option.isNone_iff_eq_none, Option.any_eq_true,
    Bool.not_eq_true'] at facts
  obtain ⟨⟨⟨onRoster, ended⟩, answer⟩, blob, published, signed, unlisted⟩ := facts
  rcases throughout.of_exec executed _ onRoster ⟨blob, published, signed, unlisted⟩ with
    ⟨blob', served, -⟩ | ⟨i, blob', rest, running⟩
  · cases answer.symm.trans served
  · have free : w.sweeps i = none := by
      by_cases own : i = 0
      · rw [own]
        exact ended
      · exact sweeps_of_only own (Machine.runsTo_of_exec meets executed) rfl
    cases free.symm.trans running

end OutpostPi.Pi.SelfRevoke
