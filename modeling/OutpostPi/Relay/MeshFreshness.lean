import Mathlib.Data.Nat.Find
import OutpostPi.Relay.MeshAuthCache
import OutpostPi.Relay.MeshStoreRuns

/-!
# How stale an authorization can be

A positive answer is backed by one verified row that was in the store at some moment. What the
cache holds stays backed as long as no publish of an Owner behind it has been invalidated since
(`Backed`), and a scan is cached only if no publish at all was invalidated while it ran.

`justified_answers` says what this means for an answer given after a publish was invalidated:
the row that backs it was in the store at or after that publish, or it was replaced by an
earlier publish of another Owner whose own invalidation was still outstanding.
-/

set_option autoImplicit false

namespace OutpostPi.Relay

open OutpostPi.Lib

variable {codec : MeshCodec}

/-! ## Rows behind an answer -/

/-- A verified row of the Owner has both Pis among its members. -/
def Supports (codec : MeshCodec) (rows : Map String MeshRow) (owner piA piB : String) : Prop :=
  ∃ row members, rows.lookup owner = some row ∧
    codec.verifiedMembers owner row = some members ∧ piA ∈ members ∧ piB ∈ members

/-- Every member in the union of a scan comes from one of the rows that were counted. -/
theorem supports_of_scan {piA : String} {rows : Map String MeshRow} {found : ScannedMembership}
    (scanned : scanMembership codec piA rows = some found) :
    ∀ piB ∈ found.members, ∃ owner ∈ found.ownerHashes, Supports codec rows owner piA piB := by
  have fold : ∀ (entries : List (Sigma fun _ : String => MeshRow)) (union : ScannedMembership),
      (∀ entry ∈ entries, rows.lookup entry.1 = some entry.2) →
      (∀ piB ∈ union.members, ∃ owner ∈ union.ownerHashes, Supports codec rows owner piA piB) →
      ∀ piB ∈ (entries.foldl (scanRow codec piA) union).members,
        ∃ owner ∈ (entries.foldl (scanRow codec piA) union).ownerHashes,
          Supports codec rows owner piA piB := by
    intro entries
    induction entries with
    | nil =>
      intro union _ supported
      exact supported
    | cons entry entries ih =>
      intro union stored supported
      refine ih _ (fun other mem => stored other (List.mem_cons_of_mem entry mem)) ?_
      rw [scanRow]
      split
      · exact supported
      · next members verified =>
        split
        · next isMember =>
          intro piB mem
          rcases List.mem_append.mp mem with earlier | here
          · obtain ⟨owner, counted, supports⟩ := supported piB earlier
            exact ⟨owner, List.mem_append_left _ counted, supports⟩
          · refine ⟨entry.1, List.mem_append_right _ (List.mem_singleton.mpr rfl), entry.2, members,
              stored entry List.mem_cons_self, verified, isMember, here⟩
        · exact supported
  rw [scanMembership] at scanned
  split at scanned
  · cases scanned
  · cases scanned
    refine fold rows.entries ⟨[], []⟩ ?_ ?_
    · intro entry mem
      exact AList.mem_lookup_iff.mpr mem
    · intro piB mem
      cases mem

/-! ## History -/

/-- Each publish wrote the row of its Owner only, and the last contents are those of the store. -/
structure History (store : MeshStore) (publishes : List Publish)
    (contents : List (Map String MeshRow)) : Prop where
  length : contents.length = publishes.length + 1
  latest : contents[publishes.length]? = some store.rows
  writes : ∀ k publish, publishes[k]? = some publish →
    ∃ before after, contents[k]? = some before ∧ contents[k + 1]? = some after ∧
      ∀ owner, owner ≠ publish.ownerHash → after.lookup owner = before.lookup owner

/-- The members were all backed by rows of these Owners at one moment, and no publish of these
Owners has been invalidated since. -/
def Backed (codec : MeshCodec) (publishes : List Publish) (contents : List (Map String MeshRow))
    (piA : String) (owners members : List String) : Prop :=
  ∃ moment rows, contents[moment]? = some rows ∧
    (∀ piB ∈ members, ∃ owner ∈ owners, Supports codec rows owner piA piB) ∧
    ∀ (k : Nat) (publish : Publish), moment ≤ k → publishes[k]? = some publish →
      publish.ownerHash ∈ owners → publish.invalidated = false

/-- The later list knows every publish of the earlier one, perhaps invalidated by now. -/
def Extends (known publishes : List Publish) : Prop :=
  ∀ (k : Nat) (publish : Publish), known[k]? = some publish →
    ∃ publish' : Publish, publishes[k]? = some publish' ∧
    publish'.ownerHash = publish.ownerHash ∧
    (publish.invalidated = true → publish'.invalidated = true)

/-- After any publish that was invalidated before the call, a positive answer is supported by the
store at or after that publish; or an earlier publish of another Owner, not invalidated when the
call started, replaced a row that supports it. -/
def Justified (codec : MeshCodec) (contents : List (Map String MeshRow)) (answer : AuthAnswer) :
    Prop :=
  answer.authorized = true → ∀ k publish, answer.known[k]? = some publish →
    publish.invalidated = true →
    (∃ moment rows owner, k + 1 ≤ moment ∧ contents[moment]? = some rows ∧
      Supports codec rows owner answer.piA answer.piB) ∨
    ∃ j other rows, j < k ∧ answer.known[j]? = some other ∧ other.invalidated = false ∧
      other.ownerHash ≠ publish.ownerHash ∧ contents[j]? = some rows ∧
      Supports codec rows other.ownerHash answer.piA answer.piB

section History

variable {store : MeshStore} {publishes : List Publish} {contents : List (Map String MeshRow)}
  {piA piB owner : String} {owners members : List String} {rows : Map String MeshRow}

/-- A row stays while its Owner publishes nothing. -/
theorem History.lookup_stable (history : History store publishes contents) {moment later : Nat}
    (earlier : moment ≤ later) (at' : contents[moment]? = some rows)
    (bounded : later ≤ publishes.length)
    (silent : ∀ k publish, moment ≤ k → k < later → publishes[k]? = some publish →
      publish.ownerHash ≠ owner) :
    ∃ rows', contents[later]? = some rows' ∧ rows'.lookup owner = rows.lookup owner := by
  induction later with
  | zero =>
    obtain rfl : moment = 0 := Nat.le_zero.mp earlier
    exact ⟨rows, at', rfl⟩
  | succ later ih =>
    rcases Nat.eq_or_lt_of_le earlier with rfl | before
    · exact ⟨rows, at', rfl⟩
    · have le : moment ≤ later := Nat.le_of_lt_succ before
      obtain ⟨rows', at'', same⟩ := ih le (by omega)
        fun k publish from' until' => silent k publish from' (Nat.lt_succ_of_lt until')
      obtain ⟨publish, known⟩ : ∃ publish, publishes[later]? = some publish :=
        ⟨publishes[later], List.getElem?_eq_getElem (by omega)⟩
      obtain ⟨before', after, beforeAt, afterAt, others⟩ := history.writes later publish known
      have differs := silent later publish le (Nat.lt_succ_self later) known
      rw [at''] at beforeAt
      cases beforeAt
      exact ⟨after, afterAt, (others owner differs.symm).trans same⟩

theorem Supports.congr {rows' : Map String MeshRow} (supports : Supports codec rows owner piA piB)
    (same : rows'.lookup owner = rows.lookup owner) : Supports codec rows' owner piA piB := by
  obtain ⟨row, members, found, verified⟩ := supports
  exact ⟨row, members, same.trans found, verified⟩

/-- What is backed when it is answered is justified. -/
theorem justified_of_backed (history : History store publishes contents)
    (backed : Backed codec publishes contents piA owners members) {known : List Publish}
    (extends' : Extends known publishes) (isMember : piB ∈ members) (authorized : Bool) :
    Justified codec contents ⟨piA, piB, authorized, known⟩ := by
  obtain ⟨moment, rows, at', supported, valid⟩ := backed
  obtain ⟨owner, counted, supports⟩ := supported piB isMember
  intro _ k publish (isKnown : known[k]? = some publish) invalidated
  obtain ⟨publish', now, sameOwner, still⟩ := extends' k publish isKnown
  obtain ⟨bounded, -⟩ := List.getElem?_eq_some_iff.mp now
  rcases Nat.lt_or_ge k moment with late | early
  · exact Or.inl ⟨moment, rows, owner, late, at', supports⟩
  have stale : ∀ j other, moment ≤ j → publishes[j]? = some other → other.ownerHash = owner →
      other.invalidated = false := by
    intro j other from' at'' isOwner
    exact valid j other from' at'' (isOwner ▸ counted)
  -- the first publish of the Owner since the moment decides
  by_cases written : ∃ j, moment ≤ j ∧ j ≤ k ∧
      ∃ other, publishes[j]? = some other ∧ other.ownerHash = owner
  · classical
    obtain ⟨from', until', other, otherAt, isOwner⟩ := Nat.find_spec written
    have first : ∀ i other, moment ≤ i → i < Nat.find written → publishes[i]? = some other →
        other.ownerHash ≠ owner := by
      intro i other from'' before at'' is
      exact Nat.find_min written before ⟨from'', by omega, other, at'', is⟩
    generalize Nat.find written = j at from' until' otherAt first
    have notOwner : publish.ownerHash ≠ owner := by
      intro is
      have fresh := stale k publish' early now (sameOwner.trans is)
      rw [still invalidated] at fresh
      cases fresh
    have earlier : j < k := by
      refine Nat.lt_of_le_of_ne until' ?_
      rintro rfl
      rw [now] at otherAt
      cases otherAt
      exact notOwner (sameOwner.symm.trans isOwner)
    obtain ⟨inKnown, -⟩ := List.getElem?_eq_some_iff.mp isKnown
    have inKnown' : j < known.length := by omega
    have otherKnown : known[j]? = some known[j] := List.getElem?_eq_getElem inKnown'
    obtain ⟨other', now', sameOwner', still'⟩ := extends' j known[j] otherKnown
    rw [otherAt] at now'
    cases now'
    obtain ⟨rows', at'', same⟩ := history.lookup_stable from' at' (by omega) first
    refine Or.inr ⟨j, known[j], rows', earlier, otherKnown, ?_, ?_, at'', ?_⟩
    · rw [← Bool.not_eq_true]
      intro was
      have fresh := stale j other from' otherAt isOwner
      rw [still' was] at fresh
      cases fresh
    · rw [← sameOwner', isOwner]
      exact notOwner.symm
    · rw [← sameOwner', isOwner]
      exact supports.congr same
  · have quiet : ∀ j other, moment ≤ j → j < k + 1 → publishes[j]? = some other →
        other.ownerHash ≠ owner := by
      intro j other from' before at'' is
      exact written ⟨j, from', Nat.le_of_lt_succ before, other, at'', is⟩
    obtain ⟨rows', at'', same⟩ :=
      history.lookup_stable (Nat.le_succ_of_le early) at' bounded quiet
    exact Or.inl ⟨k + 1, rows', owner, Nat.le_refl _, at'', supports.congr same⟩

end History

/-! ## The cache -/

/-- Every entry of the later cache was in the earlier one. -/
def FewerEntries (cache cache' : MeshAuthCache) : Prop :=
  ∀ key entry, cache'.entries.lookup key = some entry → cache.entries.lookup key = some entry

namespace MeshAuthCache

variable {cache : MeshAuthCache} {piPk : String} {now : Nat}

theorem miss_cases (cache : MeshAuthCache) (piPk : String) :
    FewerEntries cache (cache.miss piPk).2 ∧
    (cache.miss piPk).2.generation = cache.generation ∧
    (∀ generation, (cache.miss piPk).1 = .scan generation → generation = cache.generation) ∧
    ∀ members, (cache.miss piPk).1 ≠ .answer (some members) := by
  have fewer : FewerEntries cache { cache with entries := cache.entries.erase piPk } := by
    intro key entry found
    exact Map.lookup_of_erase found
  simp only [miss]
  split
  · refine ⟨fewer, rfl, ?_, ?_⟩
    · intro generation impossible
      cases impossible
    · intro members impossible
      cases impossible
  · split
    · refine ⟨fewer, rfl, ?_, ?_⟩
      · intro generation impossible
        cases impossible
      · intro members impossible
        cases impossible
    · refine ⟨fewer, rfl, ?_, ?_⟩
      · intro generation admitted
        cases admitted
        rfl
      · intro members impossible
        cases impossible

/-- The first critical section adds no entry, admits a scan under the current generation, and
answers with what a cached entry holds, or with nothing. -/
theorem lookup_cases (cache : MeshAuthCache) (piPk : String) (now : Nat) :
    FewerEntries cache (cache.lookup piPk now).2 ∧
    (cache.lookup piPk now).2.generation = cache.generation ∧
    (∀ generation, (cache.lookup piPk now).1 = .scan generation →
      generation = cache.generation) ∧
    ∀ members, (cache.lookup piPk now).1 = .answer (some members) →
      ∃ entry owners, cache.entries.lookup piPk = some entry ∧
        entry.membership = .found owners members := by
  obtain ⟨fewer, generation, admitted, unanswered⟩ := miss_cases cache piPk
  rw [lookup]
  split
  · next entry cached =>
    split
    · refine ⟨fun key other found => found, rfl, ?_, ?_⟩
      · intro generation impossible
        cases impossible
      · intro members answered
        cases membership : entry.membership with
        | found owners others =>
          rw [membership] at answered
          cases answered
          exact ⟨entry, owners, cached, membership⟩
        | absent =>
          rw [membership] at answered
          cases answered
    · exact ⟨fewer, generation, admitted, fun members answered =>
        absurd answered (unanswered members)⟩
  · exact ⟨fewer, generation, admitted, fun members answered =>
      absurd answered (unanswered members)⟩

/-- The second critical section adds at most the entry of its scan, and returns the members of
its scan only when the generation is still the one it was admitted under. -/
theorem finish_cases {generation : UInt64} {membership : Option ScannedMembership}
    {oldest : String} {result : Option (Option (List String)) × MeshAuthCache}
    (finished : cache.finish piPk generation membership now oldest = some result) :
    result.2.generation = cache.generation ∧
      ((result.1 = none ∧ FewerEntries cache result.2) ∨
        result.1 = some (membership.map ScannedMembership.members) ∧
          cache.generation = generation ∧
          ∀ key entry, result.2.entries.lookup key = some entry →
            (key = piPk ∧ entry.membership = membershipOf membership) ∨
              cache.entries.lookup key = some entry) := by
  rw [finish] at finished
  split at finished
  · cases finished
    exact ⟨rfl, Or.inl ⟨rfl, fun key entry found => found⟩⟩
  · next current =>
    obtain ⟨entries, evicted, rfl⟩ := Option.map_eq_some_iff.mp finished
    have kept : ∀ key entry, entries.lookup key = some entry →
        cache.entries.lookup key = some entry := by
      intro key entry found
      rw [evict] at evicted
      split at evicted
      · obtain ⟨_, rfl⟩ := Machine.of_guard evicted
        exact (Map.lookup_of_filter (Map.lookup_of_erase found)).1
      · cases evicted
        exact (Map.lookup_of_filter found).1
    refine ⟨rfl, Or.inr ⟨rfl, not_not.mp current, ?_⟩⟩
    intro key entry found
    rcases eq_or_ne key piPk with rfl | other
    · rw [AList.lookup_insert] at found
      cases found
      exact Or.inl ⟨rfl, rfl⟩
    · rw [AList.lookup_insert_ne other] at found
      exact Or.inr (kept key entry found)

/-- An entry that survives an invalidation is not backed by the publishing Owner. -/
theorem of_invalidate {ownerHash : String} {blob : Bytes} {key : String} {entry : CacheEntry}
    (found : (cache.invalidateOwnerPublish codec ownerHash blob).entries.lookup key =
      some entry) : cache.entries.lookup key = some entry ∧
      ∀ owners members, entry.membership = .found owners members → ownerHash ∉ owners := by
  obtain ⟨before, kept⟩ := Map.lookup_of_filter found
  refine ⟨before, ?_⟩
  intro owners members membership
  rw [unaffected, membership, Bool.and_eq_true] at kept
  simpa using kept.2

end MeshAuthCache

/-! ## Steps -/

section Transport

variable {publishes : List Publish} {contents : List (Map String MeshRow)} {piA : String}
  {owners members : List String} {known : List Publish}

theorem getElem?_append_of_some {α : Type} {items : List α} {k : Nat} {item : α}
    (found : items[k]? = some item) (more : List α) : (items ++ more)[k]? = some item := by
  obtain ⟨bounded, -⟩ := List.getElem?_eq_some_iff.mp found
  rwa [List.getElem?_append_left bounded]

theorem Backed.publish (backed : Backed codec publishes contents piA owners members)
    (rows : Map String MeshRow) (ownerHash : String) (blob : Bytes) :
    Backed codec (publishes ++ [⟨ownerHash, blob, false⟩]) (contents ++ [rows]) piA owners
      members := by
  obtain ⟨moment, rows', at', supported, valid⟩ := backed
  refine ⟨moment, rows', getElem?_append_of_some at' _, supported, ?_⟩
  intro k publish from' known counted
  rcases Nat.lt_or_ge k publishes.length with old | new
  · rw [List.getElem?_append_left old] at known
    exact valid k publish from' known counted
  · rw [List.getElem?_append_right new, List.getElem?_singleton] at known
    obtain ⟨_, rfl⟩ := Machine.of_guard known
    rfl

theorem Backed.invalidate (backed : Backed codec publishes contents piA owners members)
    {index : Nat} {publish : Publish} (other : publish.ownerHash ∉ owners) :
    Backed codec (publishes.set index { publish with invalidated := true }) contents piA owners
      members := by
  obtain ⟨moment, rows', stored, supported, valid⟩ := backed
  refine ⟨moment, rows', stored, supported, ?_⟩
  intro k publish' from' known counted
  rw [List.getElem?_set] at known
  split at known
  · obtain ⟨_, rfl⟩ := Machine.of_guard known
    exact absurd counted other
  · exact valid k publish' from' known counted

theorem Extends.publish (extends' : Extends known publishes) (publish : Publish) :
    Extends known (publishes ++ [publish]) := by
  intro k old isKnown
  obtain ⟨now, at', same⟩ := extends' k old isKnown
  exact ⟨now, getElem?_append_of_some at' _, same⟩

theorem Extends.invalidate (extends' : Extends known publishes) {index : Nat} {publish : Publish}
    (at' : publishes[index]? = some publish) :
    Extends known (publishes.set index { publish with invalidated := true }) := by
  intro k old isKnown
  obtain ⟨now, nowAt, sameOwner, still⟩ := extends' k old isKnown
  rcases eq_or_ne index k with rfl | other
  · rw [at'] at nowAt
    cases nowAt
    obtain ⟨bounded, -⟩ := List.getElem?_eq_some_iff.mp at'
    exact ⟨_, List.getElem?_set_self bounded, sameOwner, fun _ => rfl⟩
  · exact ⟨now, by rw [List.getElem?_set_ne other, nowAt], sameOwner, still⟩

theorem Justified.publish {answer : AuthAnswer} (justified : Justified codec contents answer)
    (rows : Map String MeshRow) : Justified codec (contents ++ [rows]) answer := by
  intro authorized k publish known invalidated
  rcases justified authorized k publish known invalidated with
    ⟨moment, rows', owner, after, at', supports⟩ | ⟨j, other, rows', before, known', open', differs,
      at', supports⟩
  · exact Or.inl ⟨moment, rows', owner, after, getElem?_append_of_some at' _, supports⟩
  · exact Or.inr ⟨j, other, rows', before, known', open', differs, getElem?_append_of_some at' _,
      supports⟩

/-- A denial needs no justification. -/
theorem justified_of_denied {piB : String} : Justified codec contents ⟨piA, piB, false, known⟩ := by
  intro impossible
  cases impossible

end Transport

/-- A call knows publishes that happened, was admitted under the generation of its time, and has
scanned rows that back its result unless a publish has been invalidated meanwhile. -/
structure CallInvariant (codec : MeshCodec) (publishes : List Publish)
    (contents : List (Map String MeshRow)) (invalidations : Nat) (call : AuthCall) : Prop where
  known : Extends call.known publishes
  admitted : ∀ generation, call.stage = .scanning generation ∨
      (∃ membership, call.stage = .scanned generation membership) →
    generation = UInt64.ofNat call.admittedAt ∧ call.admittedAt ≤ invalidations
  scanned : ∀ generation found, call.stage = .scanned generation (some found) →
    invalidations = call.admittedAt →
    Backed codec publishes contents call.piA found.ownerHashes found.members

/-- Every cached membership is backed. -/
def EntriesBacked (codec : MeshCodec) (publishes : List Publish)
    (contents : List (Map String MeshRow)) (cache : MeshAuthCache) : Prop :=
  ∀ piA entry owners members, cache.entries.lookup piA = some entry →
    entry.membership = .found owners members →
    Backed codec publishes contents piA owners members

structure MeshInvariant (codec : MeshCodec) (w : MeshWorld) : Prop where
  history : History w.store w.publishes w.contents
  generation : w.cache.generation = UInt64.ofNat w.invalidations
  entries : EntriesBacked codec w.publishes w.contents w.cache
  calls : ∀ i call, w.calls i = some call →
    CallInvariant codec w.publishes w.contents w.invalidations call
  answers : ∀ answer ∈ w.answers, Justified codec w.contents answer

/-- No scan is outlived by as many invalidations as the generation counter has values. -/
def FewInvalidations : MeshWorld → MeshAction → Prop := fun w action =>
  match action with
  | .finish index _ _ =>
    match w.calls index with
    | some call => w.invalidations < call.admittedAt + 2 ^ 64
    | none => True
  | _ => True

instance (w : MeshWorld) (action : MeshAction) : Decidable (FewInvalidations w action) := by
  unfold FewInvalidations
  split
  · split
    · infer_instance
    · infer_instance
  · infer_instance

namespace MeshInvariant

variable {w w' : MeshWorld} {index : Nat} {call : AuthCall}

/-- The cache and one call change. -/
theorem setCall (inv : MeshInvariant codec w) {cache : MeshAuthCache} {call' : AuthCall}
    (generation : cache.generation = w.cache.generation)
    (entries : EntriesBacked codec w.publishes w.contents cache)
    (ok : CallInvariant codec w.publishes w.contents w.invalidations call') :
    MeshInvariant codec ({ w with cache := cache }.setCall index call') :=
  { inv with
    generation := generation.trans inv.generation
    entries := entries
    calls i other is := by
      rcases of_update_eq_some is with ⟨-, now⟩ | ⟨-, before⟩
      · cases now
        exact ok
      · exact inv.calls i other before }

/-- The cache changes and one call returns. -/
theorem answer (inv : MeshInvariant codec w) {cache : MeshAuthCache}
    {members : Option (List String)} (generation : cache.generation = w.cache.generation)
    (entries : EntriesBacked codec w.publishes w.contents cache)
    (known : Extends call.known w.publishes)
    (backed : ∀ found, members = some found →
      ∃ owners, Backed codec w.publishes w.contents call.piA owners found) :
    MeshInvariant codec ({ w with cache := cache }.answer index call members) where
  history := inv.history
  generation := generation.trans inv.generation
  entries := entries
  calls i other is := by
    rcases of_update_eq_some is with ⟨-, now⟩ | ⟨-, before⟩
    · cases now
    · exact inv.calls i other before
  answers other mem := by
    rcases List.mem_append.mp mem with before | now
    · exact inv.answers other before
    · rw [List.mem_singleton.mp now]
      split
      · next found =>
        cases authorized : found.contains call.piB with
        | false => exact justified_of_denied
        | true =>
          obtain ⟨owners, isBacked⟩ := backed found rfl
          exact justified_of_backed inv.history isBacked known (by simpa using authorized) true
      · exact justified_of_denied

theorem publish (inv : MeshInvariant codec w) (call : Upsert) :
    MeshInvariant codec (w.publish call) := by
  rw [MeshWorld.publish]
  split
  -- a refused publication leaves the rows
  · next failure store failed =>
    have rows : store.rows = w.store.rows := by
      have same := MeshStore.rows_of_upsert_error (congrArg Prod.fst failed)
      rwa [failed] at same
    refine { inv with history := ⟨inv.history.length, ?_, inv.history.writes⟩ }
    rw [rows]
    exact inv.history.latest
  -- a stored one is the next entry of the history
  · next store wrote =>
    have rows : store.rows = w.store.rows.insert call.ownerPkHash call.row := by
      have ok := (MeshStore.upsert_ok (congrArg Prod.fst wrote)).2.2.2
      rwa [wrote] at ok
    have length := inv.history.length
    constructor
    · constructor
      · simp [length]
      · rw [List.length_append, List.length_singleton, ← length]
        exact List.getElem?_concat_length
      · intro k publish known
        rcases Nat.lt_or_ge k w.publishes.length with old | new
        · rw [List.getElem?_append_left old] at known
          obtain ⟨before, after, beforeAt, afterAt, others⟩ := inv.history.writes k publish known
          exact ⟨before, after, getElem?_append_of_some beforeAt _,
            getElem?_append_of_some afterAt _, others⟩
        · rw [List.getElem?_append_right new, List.getElem?_singleton] at known
          obtain ⟨last, rfl⟩ := Machine.of_guard known
          obtain rfl : k = w.publishes.length := by omega
          refine ⟨w.store.rows, store.rows, getElem?_append_of_some inv.history.latest _, ?_, ?_⟩
          · rw [← length]
            exact List.getElem?_concat_length
          · intro owner differs
            rw [rows]
            exact AList.lookup_insert_ne differs
    · exact inv.generation
    · intro piA entry owners members found membership
      exact (inv.entries piA entry owners members found membership).publish _ _ _
    · intro i other is
      have ok := inv.calls i other is
      refine ⟨ok.known.publish _, ok.admitted, ?_⟩
      intro generation found stage unchanged
      exact (ok.scanned generation found stage unchanged).publish _ _ _
    · intro answer mem
      exact (inv.answers answer mem).publish _

theorem invalidate (inv : MeshInvariant codec w) (taken : w.invalidate codec index = some w') :
    MeshInvariant codec w' := by
  rw [MeshWorld.invalidate] at taken
  split at taken
  · next publish at' =>
    split at taken
    · cases taken
    · cases taken
      constructor
      · constructor
        · rw [List.length_set]
          exact inv.history.length
        · rw [List.length_set]
          exact inv.history.latest
        · intro k publish' known
          rw [List.getElem?_set] at known
          split at known
          · next same =>
            obtain ⟨_, rfl⟩ := Machine.of_guard known
            rw [← same]
            exact inv.history.writes index publish at'
          · exact inv.history.writes k publish' known
      · rw [MeshAuthCache.invalidateOwnerPublish, inv.generation]
        exact (UInt64.ofNat_add _ _).symm
      · intro piA entry owners members found membership
        obtain ⟨before, unaffected⟩ := MeshAuthCache.of_invalidate found
        exact (inv.entries piA entry owners members before membership).invalidate
          (unaffected owners members membership)
      · intro i call is
        have ok := inv.calls i call is
        refine ⟨ok.known.invalidate at', ?_, ?_⟩
        · intro generation stage
          obtain ⟨same, le⟩ := ok.admitted generation stage
          exact ⟨same, Nat.le_succ_of_le le⟩
        · intro generation found stage unchanged
          have le := (ok.admitted generation (Or.inr ⟨_, stage⟩)).2
          -- an invalidation happened after the admission
          rw [← unchanged] at le
          exact absurd le (Nat.not_succ_le_self _)
      · exact inv.answers
  · cases taken

theorem lookup (inv : MeshInvariant codec w) {now : Nat} (at' : w.calls index = some call)
    (taken : w.lookup index now call = some w') : MeshInvariant codec w' := by
  have ok := inv.calls index call at'
  obtain ⟨fewer, generation, admitted, answered⟩ :=
    MeshAuthCache.lookup_cases w.cache call.piA now
  rw [MeshWorld.lookup] at taken
  split at taken
  case h_2 => cases taken
  case h_1 stage =>
  generalize w.cache.lookup call.piA now = result at taken fewer generation admitted answered
  have entries : EntriesBacked codec w.publishes w.contents result.2 := by
    intro piA entry owners members found membership
    exact inv.entries piA entry owners members (fewer piA entry found) membership
  split at taken
  · next members cache =>
    cases taken
    refine inv.answer generation entries ok.known ?_
    rintro found rfl
    obtain ⟨entry, owners, cached, membership⟩ := answered found rfl
    exact ⟨owners, inv.entries call.piA entry owners found cached membership⟩
  · next cache =>
    cases taken
    refine inv.setCall generation entries ⟨ok.known, ?_, ?_⟩
    · rintro other (impossible | ⟨_, impossible⟩)
      · cases impossible
      · cases impossible
    · intro other found impossible
      cases impossible
  · next admittedGeneration cache =>
    cases taken
    refine inv.setCall generation entries ⟨ok.known, ?_, ?_⟩
    · rintro other (is | ⟨_, impossible⟩)
      · cases is
        exact ⟨(admitted _ rfl).trans inv.generation, Nat.le_refl _⟩
      · cases impossible
    · intro other found impossible
      cases impossible

theorem scan (inv : MeshInvariant codec w) {fails : Bool} (at' : w.calls index = some call)
    (taken : w.scan codec index fails call = some w') : MeshInvariant codec w' := by
  have ok := inv.calls index call at'
  rw [MeshWorld.scan] at taken
  split at taken
  case h_2 => cases taken
  case h_1 generation stage =>
  cases taken
  refine inv.setCall rfl inv.entries ⟨ok.known, ?_, ?_⟩
  · rintro other (impossible | ⟨_, is⟩)
    · cases impossible
    · cases is
      exact ok.admitted generation (Or.inl stage)
  · intro other found is unchanged
    injection is with _ scanned
    split at scanned
    · cases scanned
    · -- nothing has been published since the moment of the read
      refine ⟨w.publishes.length, w.store.rows, inv.history.latest, supports_of_scan scanned, ?_⟩
      intro k publish from' known
      rw [List.getElem?_eq_none from'] at known
      cases known

theorem finish (inv : MeshInvariant codec w) {now : Nat} {oldest : String}
    (at' : w.calls index = some call) (few : FewInvalidations w (.finish index now oldest))
    (taken : w.finish index now oldest call = some w') : MeshInvariant codec w' := by
  have ok := inv.calls index call at'
  simp only [FewInvalidations, at'] at few
  rw [MeshWorld.finish] at taken
  split at taken
  case h_2 => cases taken
  case h_1 generation membership stage =>
  obtain ⟨result, finished, rfl⟩ := Option.map_eq_some_iff.mp taken
  obtain ⟨sameGeneration, ⟨restart, fewer⟩ | ⟨answered, current, entriesOf⟩⟩ :=
    MeshAuthCache.finish_cases finished
  · obtain ⟨members, cache⟩ := result
    cases restart
    refine inv.setCall sameGeneration ?_ ⟨ok.known, ?_, ?_⟩
    · intro piA entry owners members found membership
      exact inv.entries piA entry owners members (fewer piA entry found) membership
    · rintro other (impossible | ⟨_, impossible⟩)
      · cases impossible
      · cases impossible
    · intro other found impossible
      cases impossible
  · obtain ⟨members, cache⟩ := result
    cases answered
    -- the generation has not moved, and it cannot have wrapped around
    have unchanged : w.invalidations = call.admittedAt := by
      obtain ⟨admitted, le⟩ := ok.admitted generation (Or.inr ⟨membership, stage⟩)
      rw [inv.generation, admitted] at current
      have same := congrArg UInt64.toNat current
      rw [UInt64.toNat_ofNat', UInt64.toNat_ofNat'] at same
      omega
    have backed : ∀ found, membership = some found →
        Backed codec w.publishes w.contents call.piA found.ownerHashes found.members := by
      rintro found rfl
      exact ok.scanned generation found stage unchanged
    refine inv.answer sameGeneration ?_ ok.known ?_
    · intro piA entry owners members cached isFound
      rcases entriesOf piA entry cached with ⟨rfl, is⟩ | before
      · cases scanned : membership with
        | none =>
          rw [isFound, scanned] at is
          cases is
        | some found =>
          rw [isFound, scanned] at is
          cases is
          exact backed found scanned
      · exact inv.entries piA entry owners members before isFound
    · intro members is
      obtain ⟨found, scanned, rfl⟩ := Option.map_eq_some_iff.mp is
      exact ⟨found.ownerHashes, backed found scanned⟩

theorem step (inv : MeshInvariant codec w) {action : MeshAction}
    (few : FewInvalidations w action) (taken : (meshMachine codec).step w action = some w') :
    MeshInvariant codec w' := by
  cases action with
  | publish call =>
    cases taken
    exact inv.publish call
  | invalidate index => exact inv.invalidate taken
  | isAuthorized index piA piB =>
    simp only [meshMachine] at taken
    split at taken
    · cases taken
      refine inv.setCall rfl inv.entries ⟨?_, ?_, ?_⟩
      · intro k publish known
        exact ⟨publish, known, rfl, id⟩
      · rintro other (impossible | ⟨_, impossible⟩)
        · cases impossible
        · cases impossible
      · intro other found impossible
        cases impossible
    · cases taken
  | lookup index now =>
    obtain ⟨call, at', taken⟩ := Option.bind_eq_some_iff.mp taken
    exact inv.lookup at' taken
  | wake index =>
    obtain ⟨call, at', taken⟩ := Option.bind_eq_some_iff.mp taken
    split at taken
    · cases taken
      refine inv.setCall rfl inv.entries ⟨(inv.calls index call at').known, ?_, ?_⟩
      · rintro other (impossible | ⟨_, impossible⟩)
        · cases impossible
        · cases impossible
      · intro other found impossible
        cases impossible
    · cases taken
  | scan index fails =>
    obtain ⟨call, at', taken⟩ := Option.bind_eq_some_iff.mp taken
    exact inv.scan at' taken
  | finish index now oldest =>
    obtain ⟨call, at', taken⟩ := Option.bind_eq_some_iff.mp taken
    exact inv.finish at' few taken

theorem init (initial : (meshMachine codec).Init w) : MeshInvariant codec w := by
  obtain ⟨cache, calls, publishes, contents, invalidations, answers⟩ := initial
  constructor
  · rw [publishes, contents]
    refine ⟨rfl, rfl, ?_⟩
    intro k publish impossible
    cases impossible
  · rw [cache, invalidations]
    rfl
  · intro piA entry owners members found
    rw [cache] at found
    cases found
  · intro i call is
    rw [calls] at is
    cases is
  · intro answer mem
    rw [answers] at mem
    cases mem

end MeshInvariant

/-! ## Whole runs -/

/-- In every run in which no scan is outlived by `2 ^ 64` invalidations, each positive answer of
a call that started after the invalidation of a publish had returned is supported by one verified
row in the store at or after that publish, or an earlier publish of another Owner, not yet
invalidated when the call started, replaced a verified row that supports it. -/
theorem justified_answers {w : MeshWorld}
    (reached : (meshMachine codec).ReachableUnder FewInvalidations w) :
    ∀ answer ∈ w.answers, Justified codec w.contents answer := by
  have inv : MeshInvariant codec w :=
    reached.invariant (fun _ initial => MeshInvariant.init initial)
      fun _ _ _ inv few taken => inv.step few taken
  exact inv.answers

/-- A test for a supporting row of any Owner. -/
def supported (codec : MeshCodec) (rows : Map String MeshRow) (piA piB : String) : Bool :=
  rows.entries.any fun entry =>
    match codec.verifiedMembers entry.1 entry.2 with
    | some members => members.contains piA && members.contains piB
    | none => false

theorem supported_of_supports {rows : Map String MeshRow} {owner piA piB : String}
    (supports : Supports codec rows owner piA piB) : supported codec rows piA piB = true := by
  obtain ⟨row, members, found, verified, isA, isB⟩ := supports
  refine List.any_eq_true.mpr ⟨⟨owner, row⟩, AList.mem_lookup_iff.mp found, ?_⟩
  rw [verified]
  simp [isA, isB]

/-- Two Owners with three envelopes: the first Owner's mesh with both Pis, the same mesh after one
of them was revoked, and the mesh of the second Owner. -/
def twoOwners : MeshCodec where
  verifyEnvelope blob _ :=
    if blob = [1] ∨ blob = [2] then some "k1" else if blob = [3] then some "k2" else none
  decodeBase64 ownerPk :=
    if ownerPk = "k1" then some [1] else if ownerPk = "k2" then some [2] else none
  ownerPkHash ownerPk := if ownerPk = [1] then "h1" else "h2"
  toLowercase := id
  decodeMemberKeys blob :=
    if blob = [1] then some ["a", "b"] else if blob = [2] then some ["a"]
    else if blob = [3] then some ["c"] else none

/-- The mesh of the first Owner is cached; its revocation is written, the second Owner publishes
and invalidates, and the first question is asked again. -/
def revocation : List MeshAction :=
  [.publish ⟨"h1", [1], 1, [1], [], 0, 0, none⟩, .invalidate 0, .isAuthorized 0 "a" "b",
    .lookup 0 0, .scan 0 false, .finish 0 0 "", .publish ⟨"h1", [1], 2, [2], [], 0, 0, none⟩,
    .publish ⟨"h2", [2], 1, [3], [], 0, 0, none⟩, .invalidate 2, .isAuthorized 1 "a" "b",
    .lookup 1 0]

def emptyMesh : MeshWorld :=
  ⟨.new .default 0, .new, fun _ => none, [], [∅], 0, []⟩

theorem init_emptyMesh : (meshMachine twoOwners).Init emptyMesh :=
  ⟨rfl, rfl, rfl, rfl, rfl, rfl⟩

/-- A revocation that is written but not yet invalidated is still answered from the cache after an
unrelated Owner has published and invalidated. -/
theorem exists_stale_answer :
    ∃ w, (meshMachine twoOwners).ReachableUnder FewInvalidations w ∧
      ∃ answer ∈ w.answers, answer.authorized = true ∧
        answer.known[2]? = some ⟨"h2", [3], true⟩ ∧
        ∀ moment rows owner, 3 ≤ moment → w.contents[moment]? = some rows →
          ¬Supports twoOwners rows owner answer.piA answer.piB := by
  have ran : ((meshMachine twoOwners).exec emptyMesh revocation).any (fun w =>
      decide (w.contents.length = 4) &&
        (w.contents[3]?.all fun rows => !supported twoOwners rows "a" "b") &&
        w.answers.any fun answer =>
          decide (answer = ⟨"a", "b", true,
            [⟨"h1", [1], true⟩, ⟨"h1", [2], false⟩, ⟨"h2", [3], true⟩]⟩)) = true := by
    decide
  have meets : (meshMachine twoOwners).Meets FewInvalidations emptyMesh revocation := by decide
  obtain ⟨w, executed, traced⟩ := (Option.any_eq_true _ _).mp ran
  rw [Bool.and_eq_true, Bool.and_eq_true, decide_eq_true_eq, List.any_eq_true] at traced
  obtain ⟨⟨length, unsupported⟩, answer, mem, is⟩ := traced
  obtain rfl := of_decide_eq_true is
  refine ⟨w, ⟨emptyMesh, init_emptyMesh, Machine.runsTo_of_exec meets executed⟩, _, mem, rfl, rfl,
    ?_⟩
  intro moment rows owner after at' supports
  obtain ⟨bounded, -⟩ := List.getElem?_eq_some_iff.mp at'
  obtain rfl : moment = 3 := by omega
  rw [at'] at unsupported
  have refuted := supported_of_supports supports
  rw [Option.all_some] at unsupported
  simp [refuted] at unsupported

/-- The answers of that run are justified by the outstanding invalidation. -/
theorem justified_answers_revocation :
    ∃ w, (meshMachine twoOwners).exec emptyMesh revocation = some w ∧ w.answers.length = 2 ∧
      ∀ answer ∈ w.answers, Justified twoOwners w.contents answer := by
  have ran : ((meshMachine twoOwners).exec emptyMesh revocation).any
      (fun w => decide (w.answers.length = 2)) = true := by decide
  have meets : (meshMachine twoOwners).Meets FewInvalidations emptyMesh revocation := by decide
  obtain ⟨w, executed, counted⟩ := (Option.any_eq_true _ _).mp ran
  exact ⟨w, executed, of_decide_eq_true counted, justified_answers
    ⟨emptyMesh, init_emptyMesh, Machine.runsTo_of_exec meets executed⟩⟩

end OutpostPi.Relay
