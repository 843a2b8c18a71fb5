import Mathlib.Data.List.Pairwise
import OutpostPi.Lib.Machine
import OutpostPi.Lib.Map

/-!
# The mesh store of the relay

The store keeps one signed row per Owner in SQLite. `MeshStore.upsert` replaces a row by a
strictly newer version, under a quota on the number of rows, a quota on the retained bytes that
still admits updates which do not grow storage, and a fixed-window budget on the creation of
Owners. Versions are unsigned in the protocol and stored in a signed column.

A failure of SQLite may strike at any statement and is chosen by the environment; the checks
and the write share one transaction, so a failed call leaves the rows alone.
-/

set_option autoImplicit false

namespace OutpostPi.Relay

open OutpostPi.Lib

/-- Octets. -/
abbrev Bytes := List UInt8

/-- The largest `usize`. -/
def usizeMax : Nat := 2 ^ 64 - 1

/-- `usize::saturating_add`. -/
def saturatingAdd (a b : Nat) : Nat := min (a + b) usizeMax

/-! ## Admission budget -/

/-- A budget per fixed window, rolled over lazily. Instants and the window are nanoseconds. -/
structure FixedWindowBudget where
  windowStarted : Nat
  used : Nat
  window : Nat
  limit : Nat
  deriving DecidableEq

namespace FixedWindowBudget

/-- A budget that nothing has been taken from. -/
def new (window limit now : Nat) : FixedWindowBudget := ⟨now, 0, window, limit⟩

/-- The window is over. -/
def isOver (budget : FixedWindowBudget) (now : Nat) : Bool :=
  decide (budget.window ≤ now - budget.windowStarted)

/-- The budget at an instant, with a new window begun when the old one is over. -/
def rolled (budget : FixedWindowBudget) (now : Nat) : FixedWindowBudget :=
  if budget.isOver now then { budget with windowStarted := now, used := 0 } else budget

/-- Charge a cost if it fits. -/
def allow (budget : FixedWindowBudget) (cost now : Nat) : Bool × FixedWindowBudget :=
  let current := budget.rolled now
  if usizeMax < current.used + cost then (false, current)
  else if current.limit < current.used + cost then (false, current)
  else (true, { current with used := current.used + cost })

end FixedWindowBudget

/-! ## Rows -/

/-- One row of `mesh_versions`, without its key. -/
structure MeshRow where
  ownerPk : Bytes
  version : Int64
  blob : Bytes
  sig : Bytes
  updatedAt : Int
  deriving DecidableEq

/-- The variable-length columns of a row as SQLite's `length` measures them: characters of the
key, bytes of the others. -/
def MeshRow.sqlLength (ownerPkHash : String) (row : MeshRow) : Nat :=
  ownerPkHash.length + row.ownerPk.length + row.blob.length + row.sig.length

/-- The bytes retained by a row. -/
def MeshRow.retainedBytes (ownerPkHash : String) (row : MeshRow) : Nat :=
  ownerPkHash.utf8ByteSize + row.ownerPk.length + row.blob.length + row.sig.length

/-- The limits of the store. -/
structure MeshStoreLimits where
  maxOwnerRows : Nat
  maxRetainedBytes : Nat
  newOwnerWindow : Nat
  maxNewOwnersPerWindow : Nat
  deriving DecidableEq

/-- The limits of a deployed relay. -/
def MeshStoreLimits.default : MeshStoreLimits where
  maxOwnerRows := 1024
  maxRetainedBytes := 64 * 1024 * 1024
  newOwnerWindow := 60 * 1000000000
  maxNewOwnersPerWindow := 32

/-- Why a blob is refused. -/
inductive StoreError
  | sql
  | staleVersion (new current : UInt64)
  | quotaExceeded (resource : String)
  | newOwnerRateLimited
  deriving DecidableEq

/-- The stored blobs with the limits and the budget for new Owners. -/
structure MeshStore where
  rows : Map String MeshRow
  limits : MeshStoreLimits
  newOwnerBudget : FixedWindowBudget

/-- The statements of `upsert` that can fail in SQLite. -/
inductive SqlStatement
  | transaction
  | currentRow
  | totals
  | execute
  | commit
  deriving DecidableEq

/-- One call of `upsert`: its arguments, the instant of the call, and the statement that fails,
if any. -/
structure Upsert where
  ownerPkHash : String
  ownerPk : Bytes
  newVersion : UInt64
  blob : Bytes
  sig : Bytes
  updatedAtMs : Int
  now : Nat
  fault : Option SqlStatement
  deriving DecidableEq

/-- The longest text or blob that SQLite stores. -/
def sqliteMaxLength : Nat := 1000000000

namespace Upsert

/-- The bytes that the call proposes to retain. -/
def proposedBytes (call : Upsert) : Nat :=
  saturatingAdd (saturatingAdd (saturatingAdd call.ownerPkHash.utf8ByteSize call.ownerPk.length)
    call.blob.length) call.sig.length

/-- The row that the call writes. -/
def row (call : Upsert) : MeshRow where
  ownerPk := call.ownerPk
  version := call.newVersion.toInt64
  blob := call.blob
  sig := call.sig
  updatedAt := call.updatedAtMs

/-- Every value fits into a SQLite column. -/
def isStorable (call : Upsert) : Bool :=
  decide (call.ownerPkHash.utf8ByteSize ≤ sqliteMaxLength) &&
    decide (call.ownerPk.length ≤ sqliteMaxLength) &&
    decide (call.blob.length ≤ sqliteMaxLength) && decide (call.sig.length ≤ sqliteMaxLength)

end Upsert

namespace MeshStore

/-- A store over an empty database. -/
def new (limits : MeshStoreLimits) (now : Nat) : MeshStore :=
  ⟨∅, limits, .new limits.newOwnerWindow limits.maxNewOwnersPerWindow now⟩

/-- The version of an Owner's row, read back as unsigned. -/
def currentVersion (store : MeshStore) (ownerPkHash : String) : Option UInt64 :=
  (store.rows.lookup ownerPkHash).map fun row => row.version.toUInt64

/-- `SUM` over all rows as SQLite computes it. -/
def sqlTotal (store : MeshStore) : Nat := Map.sumOf MeshRow.sqlLength store.rows

/-- The bytes retained by all rows. -/
def retainedBytes (store : MeshStore) : Nat := Map.sumOf MeshRow.retainedBytes store.rows

/-- The retained bytes after the call, as `upsert` projects them. -/
def projectedBytes (store : MeshStore) (call : Upsert) : Nat :=
  let currentBytes :=
    ((store.rows.lookup call.ownerPkHash).map (MeshRow.sqlLength call.ownerPkHash)).getD 0
  saturatingAdd (store.sqlTotal - currentBytes) call.proposedBytes

/-- The checks of `upsert` up to the byte quota. `SUM` fails when it overflows an `i64`. -/
def check (store : MeshStore) (call : Upsert) : Option StoreError :=
  if call.fault = some .transaction ∨ call.fault = some .currentRow then some .sql
  else if (store.currentVersion call.ownerPkHash).any (call.newVersion ≤ ·) then
    (store.currentVersion call.ownerPkHash).map (.staleVersion call.newVersion)
  else if call.fault = some .totals ∨ 2 ^ 63 ≤ store.sqlTotal then some .sql
  else if call.ownerPkHash ∉ store.rows ∧ store.limits.maxOwnerRows ≤ Map.size store.rows then
    some (.quotaExceeded "owner_rows")
  else if store.limits.maxRetainedBytes < store.projectedBytes call ∧
      store.sqlTotal < store.projectedBytes call then
    some (.quotaExceeded "retained_bytes")
  else none

/-- The write of `upsert` and its commit. -/
def write (store : MeshStore) (call : Upsert) : Except StoreError Unit × MeshStore :=
  if call.fault = some .execute ∨ call.fault = some .commit ∨ call.isStorable = false then
    (.error .sql, store)
  else (.ok (), { store with rows := store.rows.insert call.ownerPkHash call.row })

/-- Replace the row of an Owner by a strictly newer one. The budget is charged for a new Owner
only, after every other check and before the write. -/
def upsert (store : MeshStore) (call : Upsert) : Except StoreError Unit × MeshStore :=
  match store.check call with
  | some failure => (.error failure, store)
  | none =>
    if call.ownerPkHash ∈ store.rows then store.write call
    else
      let charged := store.newOwnerBudget.allow 1 call.now
      if charged.1 then { store with newOwnerBudget := charged.2 }.write call
      else (.error .newOwnerRateLimited, { store with newOwnerBudget := charged.2 })

end MeshStore

end OutpostPi.Relay
