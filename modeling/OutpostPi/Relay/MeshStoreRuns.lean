import OutpostPi.Relay.MeshStore

/-!
# Runs of the mesh store

A run is a sequence of `upsert` calls with any arguments, at any instants and with any failures
of SQLite, from an empty database. `StoreRun` carries the history beside the store: every
version written, and every creation of an Owner with the number of the budget window in which
it was admitted.

`StoreInvariant` is what every call keeps, and `upsert_guarantees` collects what it gives for a
whole run.
-/

set_option autoImplicit false

namespace OutpostPi.Relay

open OutpostPi.Lib

/-! ## One call -/

namespace FixedWindowBudget

variable {budget : FixedWindowBudget} {now : Nat}

/-- Rolling a budget over leaves its limit. -/
theorem limit_rolled : (budget.rolled now).limit = budget.limit := by
  rw [rolled]
  split <;> rfl

/-- Charging a budget leaves its limit. -/
theorem limit_allow {cost : Nat} : (budget.allow cost now).2.limit = budget.limit := by
  simp only [allow]
  split
  · exact limit_rolled
  · split
    · exact limit_rolled
    · exact limit_rolled

/-- An admitted cost is charged to the current window and fits its limit. -/
theorem allow_of_true {cost : Nat} (allowed : (budget.allow cost now).1 = true) :
    (budget.allow cost now).2.used = (budget.rolled now).used + cost ∧
      (budget.rolled now).used + cost ≤ budget.limit := by
  simp only [allow] at allowed ⊢
  rw [limit_rolled] at allowed ⊢
  by_cases overflow : usizeMax < (budget.rolled now).used + cost
  · simp [overflow] at allowed
  · by_cases exceeds : budget.limit < (budget.rolled now).used + cost
    · simp [overflow, exceeds] at allowed
    · simp only [overflow, exceeds, if_false]
      exact ⟨trivial, Nat.le_of_not_lt exceeds⟩

/-- A refused cost is not charged. -/
theorem allow_of_false {cost : Nat} (refused : (budget.allow cost now).1 = false) :
    (budget.allow cost now).2 = budget.rolled now := by
  simp only [allow] at refused ⊢
  by_cases overflow : usizeMax < (budget.rolled now).used + cost
  · simp [overflow]
  · by_cases exceeds : (budget.rolled now).limit < (budget.rolled now).used + cost
    · simp [overflow, exceeds]
    · simp [overflow, exceeds] at refused

end FixedWindowBudget

namespace MeshStore

variable {store : MeshStore} {call : Upsert}

/-- The call reaches the budget: it passes every check and its Owner has no row. -/
def charges (store : MeshStore) (call : Upsert) : Prop :=
  store.check call = none ∧ call.ownerPkHash ∉ store.rows

instance (store : MeshStore) (call : Upsert) : Decidable (store.charges call) :=
  inferInstanceAs (Decidable (_ ∧ _))

/-- A call that passes the checks is newer than its row and fits both quotas. -/
structure Admitted (store : MeshStore) (call : Upsert) : Prop where
  newer : ∀ v, store.currentVersion call.ownerPkHash = some v → v < call.newVersion
  small : store.sqlTotal < 2 ^ 63
  rowsFit : call.ownerPkHash ∈ store.rows ∨ Map.size store.rows < store.limits.maxOwnerRows
  bytesFit : store.projectedBytes call ≤ store.limits.maxRetainedBytes ∨
    store.projectedBytes call ≤ store.sqlTotal

/-- What passes the checks is admitted. -/
theorem admitted_of_check (passed : store.check call = none) : Admitted store call := by
  simp only [check] at passed
  split at passed
  · simp at passed
  split at passed
  · next stale =>
    rw [Option.any_eq_true] at stale
    obtain ⟨v, found, -⟩ := stale
    simp [found] at passed
  next notStale =>
  split at passed
  · simp at passed
  next fits =>
  split at passed
  · simp at passed
  next rows =>
  split at passed
  · simp at passed
  next bytes =>
  constructor
  · intro v found
    simpa [found] using notStale
  · exact Nat.lt_of_not_le fun large => fits (Or.inr large)
  · by_cases present : call.ownerPkHash ∈ store.rows
    · exact Or.inl present
    · exact Or.inr (Nat.lt_of_not_le fun full => rows ⟨present, full⟩)
  · by_cases small : store.projectedBytes call ≤ store.limits.maxRetainedBytes
    · exact Or.inl small
    · exact Or.inr (Nat.le_of_not_lt fun grows => bytes ⟨Nat.lt_of_not_le small, grows⟩)

/-- A write that fails leaves the store. -/
theorem write_error {failure : StoreError} (failed : (store.write call).1 = .error failure) :
    (store.write call).2 = store := by
  rw [write] at failed ⊢
  split
  · rfl
  · next stored => simp [stored] at failed

/-- A write that succeeds stores the row, and nothing else. -/
theorem write_ok (succeeded : (store.write call).1 = .ok ()) :
    call.isStorable = true ∧
      (store.write call).2 = { store with rows := store.rows.insert call.ownerPkHash call.row } := by
  rw [write] at succeeded ⊢
  split
  · next failed => simp [failed] at succeeded
  · next stored =>
    have storable : call.isStorable = true := by
      by_contra tooLong
      exact stored (Or.inr (Or.inr (by simpa using tooLong)))
    exact ⟨storable, rfl⟩

/-- A write leaves the budget for new Owners. -/
theorem newOwnerBudget_write : (store.write call).2.newOwnerBudget = store.newOwnerBudget := by
  rw [write]
  split <;> rfl

/-- A write leaves the limits. -/
theorem limits_write : (store.write call).2.limits = store.limits := by
  rw [write]
  split <;> rfl

/-- A failed call leaves every row as it was. -/
theorem rows_of_upsert_error {failure : StoreError}
    (failed : (store.upsert call).1 = .error failure) : (store.upsert call).2.rows = store.rows := by
  simp only [upsert] at failed ⊢
  split
  · rfl
  · next passed =>
    simp only [passed] at failed
    split
    · next present =>
      simp only [present, if_true] at failed
      rw [write_error failed]
    · next absent =>
      simp only [absent, if_false] at failed
      split
      · next allowed =>
        simp only [allowed, if_true] at failed
        rw [write_error failed]
      · rfl

/-- A successful call passed every check, was charged if its Owner was new, and replaced exactly
its own row. -/
theorem upsert_ok (succeeded : (store.upsert call).1 = .ok ()) :
    Admitted store call ∧ call.isStorable = true ∧
      (call.ownerPkHash ∉ store.rows → (store.newOwnerBudget.allow 1 call.now).1 = true) ∧
      (store.upsert call).2.rows = store.rows.insert call.ownerPkHash call.row := by
  simp only [upsert] at succeeded ⊢
  split at succeeded
  · simp at succeeded
  next passed =>
  refine ⟨admitted_of_check passed, ?_⟩
  split at succeeded
  · next present =>
    obtain ⟨storable, wrote⟩ := write_ok succeeded
    simp only [present, if_true]
    exact ⟨storable, fun absent => absurd trivial absent, by rw [wrote]⟩
  next absent =>
  simp only [absent, if_false]
  split at succeeded
  · next allowed =>
    obtain ⟨storable, wrote⟩ := write_ok succeeded
    simp only [allowed, if_true]
    exact ⟨storable, fun _ => trivial, by rw [wrote]⟩
  · simp at succeeded

/-- The budget changes only when it is charged, and an Owner with a row never charges it. -/
theorem newOwnerBudget_upsert (store : MeshStore) (call : Upsert) :
    (store.upsert call).2.newOwnerBudget =
      if store.charges call then (store.newOwnerBudget.allow 1 call.now).2
      else store.newOwnerBudget := by
  simp only [upsert, charges]
  split
  · next failed => simp [failed]
  · next passed =>
    by_cases present : call.ownerPkHash ∈ store.rows
    · simp [passed, present, newOwnerBudget_write]
    · simp only [passed, present, if_false, not_false_eq_true, and_self, if_true]
      split
      · exact newOwnerBudget_write
      · rfl

/-- An upsert leaves the limits. -/
theorem limits_upsert : (store.upsert call).2.limits = store.limits := by
  simp only [upsert]
  split
  · rfl
  · split
    · exact limits_write
    · split
      · exact limits_write
      · rfl

/-- A successful call for an Owner without a row was charged. -/
theorem charges_of_ok (succeeded : (store.upsert call).1 = .ok ())
    (absent : call.ownerPkHash ∉ store.rows) : store.charges call := by
  refine ⟨?_, absent⟩
  simp only [upsert] at succeeded
  split at succeeded
  · simp at succeeded
  · next passed => exact passed

/-- The version of an Owner after a successful call, read back through the signed column. -/
theorem currentVersion_of_ok (succeeded : (store.upsert call).1 = .ok ()) (hash : String) :
    (store.upsert call).2.currentVersion hash =
      if hash = call.ownerPkHash then some call.newVersion else store.currentVersion hash := by
  obtain ⟨-, -, -, wrote⟩ := upsert_ok succeeded
  rw [currentVersion, wrote]
  by_cases own : hash = call.ownerPkHash
  · subst own
    simp [Upsert.row]
  · rw [AList.lookup_insert_ne own, if_neg own]
    rfl

/-- On ASCII keys SQLite's `SUM` is the number of retained bytes. -/
theorem sqlTotal_eq_retainedBytes
    (ascii : ∀ hash ∈ store.rows, hash.utf8ByteSize = hash.length) :
    store.sqlTotal = store.retainedBytes := by
  refine Map.sumOf_congr ?_
  intro hash row found
  have present : hash ∈ store.rows := Map.mem_iff_lookup.mpr ⟨row, found⟩
  rw [MeshRow.sqlLength, MeshRow.retainedBytes, ascii hash present]

/-- The proposed bytes of a storable call do not saturate. -/
theorem proposedBytes_eq (storable : call.isStorable = true) :
    call.proposedBytes = call.row.retainedBytes call.ownerPkHash ∧
      call.proposedBytes ≤ 4 * sqliteMaxLength := by
  simp only [Upsert.isStorable, Bool.and_eq_true, decide_eq_true_eq] at storable
  obtain ⟨⟨⟨keyFits, pkFits⟩, blobFits⟩, sigFits⟩ := storable
  have room : 4 * sqliteMaxLength ≤ usizeMax := by decide
  have key : saturatingAdd call.ownerPkHash.utf8ByteSize call.ownerPk.length =
      call.ownerPkHash.utf8ByteSize + call.ownerPk.length := Nat.min_eq_left (by omega)
  have blob : saturatingAdd (call.ownerPkHash.utf8ByteSize + call.ownerPk.length)
      call.blob.length = call.ownerPkHash.utf8ByteSize + call.ownerPk.length +
        call.blob.length := Nat.min_eq_left (by omega)
  have whole : call.proposedBytes = call.ownerPkHash.utf8ByteSize + call.ownerPk.length +
      call.blob.length + call.sig.length := by
    rw [Upsert.proposedBytes, key, blob]
    exact Nat.min_eq_left (by omega)
  refine ⟨whole, ?_⟩
  omega

/-- On storable values the projected bytes are the bytes retained after the call. -/
theorem retainedBytes_of_ok (succeeded : (store.upsert call).1 = .ok ())
    (ascii : ∀ hash ∈ store.rows, hash.utf8ByteSize = hash.length)
    (asciiKey : call.ownerPkHash.utf8ByteSize = call.ownerPkHash.length) :
    (store.upsert call).2.retainedBytes = store.projectedBytes call := by
  obtain ⟨admitted, storable, -, wrote⟩ := upsert_ok succeeded
  obtain ⟨proposed, bounded⟩ := proposedBytes_eq storable
  have total := sqlTotal_eq_retainedBytes ascii
  have small := admitted.small
  have replaced := Map.sumOf_insert MeshRow.retainedBytes store.rows call.ownerPkHash call.row
  have part := Map.le_sumOf MeshRow.retainedBytes store.rows call.ownerPkHash
  have same : MeshRow.sqlLength call.ownerPkHash = MeshRow.retainedBytes call.ownerPkHash := by
    funext row
    rw [MeshRow.sqlLength, MeshRow.retainedBytes, asciiKey]
  have fits : 2 ^ 63 + 4 * sqliteMaxLength ≤ usizeMax := by decide
  rw [retainedBytes] at total ⊢
  rw [wrote, projectedBytes, same, saturatingAdd, total]
  rw [Nat.min_eq_left (by omega)]
  omega

end MeshStore

/-! ## Runs -/

/-- A store with its history: the number of budget windows begun after the first, every version
written, and every Owner created with the window that admitted it. -/
structure StoreRun where
  store : MeshStore
  windows : Nat
  written : List (String × UInt64)
  created : List (Nat × String)

namespace StoreRun

/-- The window in which the budget stands after a call. -/
def windowAfter (run : StoreRun) (call : Upsert) : Nat :=
  if run.store.charges call ∧ run.store.newOwnerBudget.isOver call.now = true then run.windows + 1
  else run.windows

/-- One call with its trace in the history. -/
def upsert (run : StoreRun) (call : Upsert) : StoreRun :=
  let window := run.windowAfter call
  match run.store.upsert call with
  | (.error _, store) => ⟨store, window, run.written, run.created⟩
  | (.ok (), store) =>
    { store := store
      windows := window
      written := run.written ++ [(call.ownerPkHash, call.newVersion)]
      created :=
        if call.ownerPkHash ∈ run.store.rows then run.created
        else run.created ++ [(window, call.ownerPkHash)] }

/-- The versions written for one Owner, oldest first. -/
def versionsOf (run : StoreRun) (hash : String) : List UInt64 :=
  (run.written.filter fun entry => entry.1 = hash).map Prod.snd

/-- The number of Owners created in one window. -/
def createdIn (run : StoreRun) (window : Nat) : Nat :=
  run.created.countP fun entry => entry.1 = window

end StoreRun

/-- Any calls at any instants on a store opened over an empty database. -/
def storeMachine (limits : MeshStoreLimits) : Machine StoreRun Upsert where
  Init run := ∃ now, run = ⟨.new limits now, 0, [], []⟩
  step run call := some (run.upsert call)

/-- The key of the call is ASCII, as the hexadecimal hashes of the relay are. -/
def AsciiKey : StoreRun → Upsert → Prop := fun _ call =>
  call.ownerPkHash.utf8ByteSize = call.ownerPkHash.length

instance (run : StoreRun) (call : Upsert) : Decidable (AsciiKey run call) :=
  inferInstanceAs (Decidable (_ = _))

/-! ## What one call preserves -/

namespace StoreRun

variable {run : StoreRun} {call : Upsert}

/-- The run carries the store along. -/
theorem store_upsert : (run.upsert call).store = (run.store.upsert call).2 := by
  rw [upsert]
  split <;> simp_all

/-- The run carries the window along. -/
theorem windows_upsert : (run.upsert call).windows = run.windowAfter call := by
  rw [upsert]
  split <;> rfl

/-- A refused upsert leaves the history. -/
theorem history_of_error {failure : StoreError}
    (failed : (run.store.upsert call).1 = .error failure) :
    (run.upsert call).written = run.written ∧ (run.upsert call).created = run.created := by
  rw [upsert]
  split
  · exact ⟨rfl, rfl⟩
  · next succeeded => simp [succeeded] at failed

/-- An accepted upsert adds its version to the history, and its Owner if that is new. -/
theorem history_of_ok (succeeded : (run.store.upsert call).1 = .ok ()) :
    (run.upsert call).written = run.written ++ [(call.ownerPkHash, call.newVersion)] ∧
      (run.upsert call).created =
        if call.ownerPkHash ∈ run.store.rows then run.created
        else run.created ++ [(run.windowAfter call, call.ownerPkHash)] := by
  rw [upsert]
  split
  · next failed => simp [failed] at succeeded
  · exact ⟨rfl, rfl⟩

/-- A call creates at most one Owner, in the window in which its budget stands, and only when
the budget admitted it. -/
theorem created_upsert (run : StoreRun) (call : Upsert) :
    (run.upsert call).created = run.created ∨
      run.store.charges call ∧ (run.store.newOwnerBudget.allow 1 call.now).1 = true ∧
        (run.upsert call).created = run.created ++ [(run.windowAfter call, call.ownerPkHash)] := by
  cases outcome : (run.store.upsert call).1 with
  | error failure => exact Or.inl (history_of_error outcome).2
  | ok =>
    have created := (history_of_ok outcome).2
    by_cases present : call.ownerPkHash ∈ run.store.rows
    · exact Or.inl (by simpa [present] using created)
    · have allowed := (MeshStore.upsert_ok outcome).2.2.1 present
      refine Or.inr ⟨MeshStore.charges_of_ok outcome present, allowed, ?_⟩
      simpa [present] using created

/-- The rows hold exactly the newest version of every Owner ever written, under ASCII keys and
within both quotas, and every Owner was created once. -/
structure RowInvariant (limits : MeshStoreLimits) (run : StoreRun) : Prop where
  configured : run.store.limits = limits
  ascii : ∀ hash ∈ run.store.rows, hash.utf8ByteSize = hash.length
  rowQuota : Map.size run.store.rows ≤ limits.maxOwnerRows
  byteQuota : run.store.retainedBytes ≤ limits.maxRetainedBytes
  newest : ∀ hash, run.store.currentVersion hash = (run.versionsOf hash).getLast?
  increasing : ∀ hash, (run.versionsOf hash).Pairwise (· < ·)
  created : ∀ hash, hash ∈ run.store.rows ↔ hash ∈ run.created.map Prod.snd
  once : (run.created.map Prod.snd).Nodup

/-- The budget has counted every Owner created in its window. -/
structure BudgetInvariant (limits : MeshStoreLimits) (run : StoreRun) : Prop where
  limit : run.store.newOwnerBudget.limit = limits.maxNewOwnersPerWindow
  past : ∀ entry ∈ run.created, entry.1 ≤ run.windows
  counted : run.createdIn run.windows ≤ run.store.newOwnerBudget.used
  used : run.store.newOwnerBudget.used ≤ limits.maxNewOwnersPerWindow
  window : ∀ w, run.createdIn w ≤ limits.maxNewOwnersPerWindow

/-- An accepted upsert adds one version to its Owner. -/
theorem versionsOf_of_ok (succeeded : (run.store.upsert call).1 = .ok ()) (hash : String) :
    (run.upsert call).versionsOf hash =
      if hash = call.ownerPkHash then run.versionsOf hash ++ [call.newVersion]
      else run.versionsOf hash := by
  rw [versionsOf, (history_of_ok succeeded).1, versionsOf, List.filter_append, List.map_append]
  by_cases own : hash = call.ownerPkHash
  · subst own
    simp
  · simp [own, Ne.symm own]

variable {limits : MeshStoreLimits}

/-- An accepted upsert leaves the rows within their quota. -/
theorem rowQuota_of_ok (inv : RowInvariant limits run)
    (succeeded : (run.store.upsert call).1 = .ok ()) :
    Map.size (run.store.upsert call).2.rows ≤ limits.maxOwnerRows := by
  obtain ⟨admitted, -, -, wrote⟩ := MeshStore.upsert_ok succeeded
  have counted := Map.size_insert run.store.rows call.ownerPkHash call.row
  have before := inv.rowQuota
  rw [wrote]
  rcases admitted.rowsFit with present | room
  · obtain ⟨row, found⟩ := Map.mem_iff_lookup.mp present
    simp only [found, Option.map_some, Option.getD_some] at counted
    omega
  · rw [inv.configured] at room
    omega

/-- The shrink exception of the byte quota never lifts the total above an earlier total. -/
theorem byteQuota_of_ok (inv : RowInvariant limits run) (asciiKey : AsciiKey run call)
    (succeeded : (run.store.upsert call).1 = .ok ()) :
    (run.store.upsert call).2.retainedBytes ≤ limits.maxRetainedBytes := by
  have admitted := (MeshStore.upsert_ok succeeded).1
  rw [MeshStore.retainedBytes_of_ok succeeded inv.ascii asciiKey]
  rcases admitted.bytesFit with fits | shrinks
  · rwa [inv.configured] at fits
  · rw [MeshStore.sqlTotal_eq_retainedBytes inv.ascii] at shrinks
    exact Nat.le_trans shrinks inv.byteQuota

/-- A new version is above every earlier one of its Owner. -/
theorem increasing_of_ok (inv : RowInvariant limits run)
    (succeeded : (run.store.upsert call).1 = .ok ()) :
    (run.versionsOf call.ownerPkHash ++ [call.newVersion]).Pairwise (· < ·) := by
  have newer := (MeshStore.upsert_ok succeeded).1.newer
  have increasing := inv.increasing call.ownerPkHash
  rw [inv.newest] at newer
  -- the newest version is the last of the list, and the list increases towards it
  rcases List.eq_nil_or_concat (run.versionsOf call.ownerPkHash) with none | ⟨earlier, last, eq⟩
  · simp [none]
  · rw [eq] at newer increasing ⊢
    have above : last < call.newVersion := newer last (by simp)
    rw [List.concat_eq_append] at increasing ⊢
    rw [List.pairwise_append] at increasing
    refine List.pairwise_append.mpr ⟨List.pairwise_append.mpr increasing, by simp, ?_⟩
    intro v mem w written
    obtain rfl : w = call.newVersion := by simpa using written
    rcases List.mem_append.mp mem with earlierMem | isLast
    · exact UInt64.lt_trans (increasing.2.2 v earlierMem last (by simp)) above
    · obtain rfl : v = last := by simpa using isLast
      exact above

/-- The step lemma of the rows: an upsert keeps their invariant. -/
theorem rowInvariant_upsert (inv : RowInvariant limits run) (asciiKey : AsciiKey run call) :
    RowInvariant limits (run.upsert call) := by
  have kept : (run.upsert call).store.limits = limits := by
    rw [store_upsert, MeshStore.limits_upsert, inv.configured]
  cases outcome : (run.store.upsert call).1 with
  -- a refused upsert leaves rows and history
  | error failure =>
    have rows : (run.upsert call).store.rows = run.store.rows := by
      rw [store_upsert, MeshStore.rows_of_upsert_error outcome]
    have written : ∀ hash, (run.upsert call).versionsOf hash = run.versionsOf hash := by
      intro hash
      rw [versionsOf, (history_of_error outcome).1, versionsOf]
    constructor
    · exact kept
    · rw [rows]
      exact inv.ascii
    · rw [rows]
      exact inv.rowQuota
    · rw [MeshStore.retainedBytes, rows]
      exact inv.byteQuota
    · intro hash
      rw [MeshStore.currentVersion, rows, written]
      exact inv.newest hash
    · intro hash
      rw [written]
      exact inv.increasing hash
    · rw [rows, (history_of_error outcome).2]
      exact inv.created
    · rw [(history_of_error outcome).2]
      exact inv.once
  -- an accepted upsert adds one row and one version of its Owner
  | ok =>
    have created := (history_of_ok outcome).2
    constructor
    · exact kept
    · intro hash mem
      rw [store_upsert, (MeshStore.upsert_ok outcome).2.2.2, AList.mem_insert] at mem
      rcases mem with rfl | old
      · exact asciiKey
      · exact inv.ascii hash old
    · rw [store_upsert]
      exact rowQuota_of_ok inv outcome
    · rw [store_upsert]
      exact byteQuota_of_ok inv asciiKey outcome
    · intro hash
      rw [store_upsert, MeshStore.currentVersion_of_ok outcome, versionsOf_of_ok outcome]
      split
      · simp
      · exact inv.newest hash
    · intro hash
      rw [versionsOf_of_ok outcome]
      split
      · next own => exact own ▸ increasing_of_ok inv outcome
      · exact inv.increasing hash
    · intro hash
      rw [store_upsert, (MeshStore.upsert_ok outcome).2.2.2, AList.mem_insert, created,
        inv.created hash]
      split
      · next present =>
        rw [inv.created] at present
        constructor
        · rintro (rfl | old)
          · exact present
          · exact old
        · exact Or.inr
      · simp [or_comm]
    · rw [created]
      split
      · exact inv.once
      · next absent =>
        rw [inv.created] at absent
        rw [List.map_append, List.map_singleton, ← List.concat_eq_append]
        exact inv.once.concat absent

/-- One more created Owner counts in its own window. -/
theorem createdIn_append {owners : List (Nat × String)} {window : Nat} {hash : String} (w : Nat) :
    (owners ++ [(window, hash)]).countP (fun entry => entry.1 = w) =
      owners.countP (fun entry => entry.1 = w) + if window = w then 1 else 0 := by
  rw [List.countP_append]
  by_cases same : window = w
  · simp [same]
  · simp [same]

/-- No Owner has been created in a window that has not begun. -/
theorem createdIn_future (inv : BudgetInvariant limits run) {w : Nat} (later : run.windows < w) :
    run.createdIn w = 0 := by
  rw [createdIn, List.countP_eq_zero]
  intro entry mem same
  have past := inv.past entry mem
  have this : entry.1 = w := by simpa using same
  omega

/-- Rolling the budget over keeps it an upper bound on what its window has admitted. -/
theorem createdIn_windowAfter (inv : BudgetInvariant limits run)
    (charged : run.store.charges call) :
    run.createdIn (run.windowAfter call) ≤ (run.store.newOwnerBudget.rolled call.now).used := by
  rw [windowAfter, FixedWindowBudget.rolled]
  by_cases elapsed : run.store.newOwnerBudget.isOver call.now = true
  · simp [charged, elapsed, createdIn_future inv]
  · simpa [elapsed] using inv.counted

/-- Windows only grow. -/
theorem windows_le_windowAfter (run : StoreRun) (call : Upsert) : run.windows ≤ run.windowAfter call := by
  rw [windowAfter]
  split <;> omega

/-- The charged budget bounds the Owners created in its window, the one of this call included. -/
theorem charged_budget (inv : BudgetInvariant limits run) (charged : run.store.charges call) :
    (run.upsert call).createdIn (run.windowAfter call) ≤
        (run.store.newOwnerBudget.allow 1 call.now).2.used ∧
      (run.store.newOwnerBudget.allow 1 call.now).2.used ≤ limits.maxNewOwnersPerWindow := by
  have counted := createdIn_windowAfter inv charged
  have rolledFits : (run.store.newOwnerBudget.rolled call.now).used ≤
      limits.maxNewOwnersPerWindow := by
    rw [FixedWindowBudget.rolled]
    split
    · exact Nat.zero_le _
    · exact inv.used
  cases allowed : (run.store.newOwnerBudget.allow 1 call.now).1 with
  | true =>
    obtain ⟨used, fits⟩ := FixedWindowBudget.allow_of_true allowed
    rw [inv.limit] at fits
    rw [createdIn] at counted ⊢
    rcases created_upsert run call with same | ⟨-, -, appended⟩
    · rw [same]
      omega
    · rw [appended, createdIn_append, if_pos rfl]
      omega
  | false =>
    rw [FixedWindowBudget.allow_of_false allowed]
    refine ⟨?_, rolledFits⟩
    rcases created_upsert run call with same | ⟨-, admitted, -⟩
    · rwa [createdIn, same]
    · rw [allowed] at admitted
      cases admitted

/-- The step lemma of the budget: an upsert keeps its invariant. -/
theorem budgetInvariant_upsert (inv : BudgetInvariant limits run) :
    BudgetInvariant limits (run.upsert call) := by
  have budget := MeshStore.newOwnerBudget_upsert run.store call
  by_cases charged : run.store.charges call
  -- a call that reaches the budget counts in the window that is current by now
  · rw [if_pos charged] at budget
    obtain ⟨counted, used⟩ := charged_budget inv charged
    constructor
    · rw [store_upsert, budget, FixedWindowBudget.limit_allow, inv.limit]
    · intro entry mem
      have le := windows_le_windowAfter run call
      rw [windows_upsert]
      rcases created_upsert run call with same | ⟨-, -, appended⟩
      · rw [same] at mem
        exact Nat.le_trans (inv.past entry mem) le
      · rw [appended] at mem
        rcases List.mem_append.mp mem with old | new
        · exact Nat.le_trans (inv.past entry old) le
        · obtain rfl : entry = _ := List.mem_singleton.mp new
          exact Nat.le_refl _
    · rw [windows_upsert, store_upsert, budget]
      exact counted
    · rw [store_upsert, budget]
      exact used
    · intro w
      by_cases here : run.windowAfter call = w
      · subst here
        exact Nat.le_trans counted used
      · have before := inv.window w
        rw [createdIn] at before ⊢
        rcases created_upsert run call with same | ⟨-, -, appended⟩
        · rwa [same]
        · rw [appended, createdIn_append, if_neg here]
          exact before
  · -- a call that does not reach the budget creates nobody and stays in its window
    rw [if_neg charged] at budget
    have created : (run.upsert call).created = run.created := by
      rcases created_upsert run call with same | ⟨reached, -⟩
      · exact same
      · exact absurd reached charged
    have window : run.windowAfter call = run.windows := by
      rw [windowAfter, if_neg]
      intro rolls
      exact charged rolls.1
    constructor
    · rw [store_upsert, budget, inv.limit]
    · rw [created, windows_upsert, window]
      exact inv.past
    · rw [createdIn, created, windows_upsert, window, store_upsert, budget]
      exact inv.counted
    · rw [store_upsert, budget]
      exact inv.used
    · intro w
      rw [createdIn, created]
      exact inv.window w

end StoreRun

/-! ## Whole runs -/

section Runs

variable {limits : MeshStoreLimits} {run : StoreRun}

/-- The rows keep their invariant in every run. -/
theorem rowInvariant_run (reached : (storeMachine limits).ReachableUnder AsciiKey run) :
    StoreRun.RowInvariant limits run := by
  refine reached.invariant ?_ ?_
  · rintro - ⟨now, rfl⟩
    constructor <;> simp [MeshStore.new, MeshStore.retainedBytes, MeshStore.currentVersion,
      StoreRun.versionsOf, AList.notMem_empty]
  · rintro before call - inv ascii ⟨⟩
    exact StoreRun.rowInvariant_upsert inv ascii

/-- The budget keeps its invariant in every run. -/
theorem budgetInvariant_run (reached : (storeMachine limits).ReachableUnder AsciiKey run) :
    StoreRun.BudgetInvariant limits run := by
  refine reached.invariant ?_ ?_
  · rintro - ⟨now, rfl⟩
    constructor <;> simp [MeshStore.new, FixedWindowBudget.new, StoreRun.createdIn]
  · rintro before call - inv - ⟨⟩
    exact StoreRun.budgetInvariant_upsert inv

/-- In every run over ASCII keys: the versions of an Owner strictly increase and the newest is
read back as it was written; both quotas hold; the Owners with a row are those created, each
once, and no window creates more of them than its budget; and whatever the next call is, it leaves the rows alone when it fails and the budget alone when
its Owner has a row. -/
theorem upsert_guarantees (reached : (storeMachine limits).ReachableUnder AsciiKey run) :
    (∀ hash, (run.versionsOf hash).Pairwise (· < ·) ∧
        run.store.currentVersion hash = (run.versionsOf hash).getLast?) ∧
      Map.size run.store.rows ≤ limits.maxOwnerRows ∧
      run.store.retainedBytes ≤ limits.maxRetainedBytes ∧
      (∀ hash, hash ∈ run.store.rows ↔ hash ∈ run.created.map Prod.snd) ∧
      (run.created.map Prod.snd).Nodup ∧
      (∀ window, run.createdIn window ≤ limits.maxNewOwnersPerWindow) ∧
      ∀ call : Upsert,
        (∀ failure, (run.store.upsert call).1 = .error failure →
          (run.store.upsert call).2.rows = run.store.rows) ∧
        (call.ownerPkHash ∈ run.store.rows →
          (run.store.upsert call).2.newOwnerBudget = run.store.newOwnerBudget) := by
  have rows := rowInvariant_run reached
  have budget := budgetInvariant_run reached
  refine ⟨?_, rows.rowQuota, rows.byteQuota, rows.created, rows.once, budget.window, ?_⟩
  · intro hash
    exact ⟨rows.increasing hash, rows.newest hash⟩
  · intro call
    refine ⟨fun failure failed => MeshStore.rows_of_upsert_error failed, ?_⟩
    intro present
    rw [MeshStore.newOwnerBudget_upsert, if_neg]
    intro charged
    exact charged.2 present

/-- A version above the signed range is written, read back and not replaced by an older one,
while the third Owner of the window is turned away. -/
theorem upsert_guarantees_signed_range :
    let limits : MeshStoreLimits := ⟨8, 100, 60, 2⟩
    let at0 : String → UInt64 → Upsert := fun hash version =>
      ⟨hash, [1, 2], version, [3], [4], 0, 10, none⟩
    let run := ((((StoreRun.mk (.new limits 0) 0 [] []).upsert (at0 "aa" 9223372036854775809)).upsert
      (at0 "aa" 9223372036854775809)).upsert (at0 "bb" 1)).upsert (at0 "cc" 1)
    run.store.currentVersion "aa" = some 9223372036854775809 ∧
      run.createdIn 0 = 2 ∧ run.createdIn 0 ≤ limits.maxNewOwnersPerWindow := by
  intro limits at0 run
  have executed : (storeMachine limits).exec ⟨.new limits 0, 0, [], []⟩
      [at0 "aa" 9223372036854775809, at0 "aa" 9223372036854775809, at0 "bb" 1, at0 "cc" 1] =
        some run := rfl
  have ascii : (storeMachine limits).Meets AsciiKey ⟨.new limits 0, 0, [], []⟩
      [at0 "aa" 9223372036854775809, at0 "aa" 9223372036854775809, at0 "bb" 1, at0 "cc" 1] := by
    decide
  have reached : (storeMachine limits).ReachableUnder AsciiKey run :=
    ⟨_, ⟨0, rfl⟩, Machine.runsTo_of_exec ascii executed⟩
  refine ⟨by decide, by decide, ?_⟩
  exact (upsert_guarantees reached).2.2.2.2.2.1 0

end Runs

end OutpostPi.Relay
