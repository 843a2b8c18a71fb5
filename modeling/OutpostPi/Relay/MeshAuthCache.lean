import OutpostPi.Relay.MeshStore

/-!
# The mesh authorization cache of the relay

`MeshAuthCache` answers whether two Pis belong to one Owner's mesh. It caches the siblings of a
Pi, filled by scans of the store that run outside its lock, one per Pi at a time. A publish
writes the store and then invalidates the entries that it affects; a generation number keeps a
scan that raced an invalidation from being cached.

`meshMachine` interleaves any number of authorization calls and publishes, one critical section
or one store access at a time. The history records the contents of the store after every
publish and what each answer was given for.
-/

set_option autoImplicit false

namespace OutpostPi.Relay

open OutpostPi.Lib

/-! ## Stored rows -/

/-- The decoding and the checks that the relay takes from elsewhere. `verifyEnvelope` returns the
Owner key embedded in a valid envelope. -/
structure MeshCodec where
  verifyEnvelope : Bytes → Bytes → Option String
  decodeBase64 : String → Option Bytes
  ownerPkHash : Bytes → String
  toLowercase : String → String
  decodeMemberKeys : Bytes → Option (List String)

/-- The members of a stored row that passes every check. -/
def MeshCodec.verifiedMembers (codec : MeshCodec) (storedOwnerHash : String) (row : MeshRow) :
    Option (List String) :=
  match codec.verifyEnvelope row.blob row.sig with
  | none => none
  | some ownerPk =>
    match codec.decodeBase64 ownerPk with
    | none => none
    | some ownerPkBytes =>
      if codec.ownerPkHash ownerPkBytes ≠ codec.toLowercase storedOwnerHash then none
      else codec.decodeMemberKeys row.blob

/-- What a scan has found of a Pi. -/
structure ScannedMembership where
  ownerHashes : List String
  members : List String
  deriving DecidableEq

/-- One round of the scan: a verified row with the Pi among its members joins the union. -/
def scanRow (codec : MeshCodec) (piPk : String) (union : ScannedMembership)
    (entry : Sigma fun _ : String => MeshRow) : ScannedMembership :=
  match codec.verifiedMembers entry.1 entry.2 with
  | none => union
  | some members =>
    if piPk ∈ members then ⟨union.ownerHashes ++ [entry.1], union.members ++ members⟩ else union

/-- The siblings of a Pi in all rows of the store. -/
def scanMembership (codec : MeshCodec) (piPk : String) (rows : Map String MeshRow) :
    Option ScannedMembership :=
  let union := rows.entries.foldl (scanRow codec piPk) ⟨[], []⟩
  if union.ownerHashes = [] then none else some union

/-! ## The cache -/

/-- What is remembered of a Pi. -/
inductive CachedMembership
  | found (ownerHashes members : List String)
  | absent
  deriving DecidableEq

/-- A remembered membership with its time. -/
structure CacheEntry where
  membership : CachedMembership
  cachedAt : Nat
  deriving DecidableEq

/-- The state behind the lock of the cache. -/
structure MeshAuthCache where
  generation : UInt64
  entries : Map String CacheEntry
  inFlight : List String

/-- How many memberships are remembered. -/
def meshAuthCacheCapacity : Nat := 1024
/-- How many scans may run at a time. -/
def maxConcurrentMeshAuthScans : Nat := 4

/-- Sixty seconds in nanoseconds. -/
def meshAuthCacheTtl : Nat := 60 * 1000000000

/-- An entry answers calls for a while. -/
def CacheEntry.isFresh (entry : CacheEntry) (now : Nat) : Bool :=
  decide (now - entry.cachedAt < meshAuthCacheTtl)

/-- The members of a cached result. -/
def CachedMembership.members : CachedMembership → Option (List String)
  | .found _ members => some members
  | .absent => none

/-- What the first critical section of `members_of` decides. -/
inductive Lookup
  | answer (members : Option (List String))
  | wait
  | scan (generation : UInt64)
  deriving DecidableEq

namespace MeshAuthCache

/-- Nothing is remembered. -/
def new : MeshAuthCache := ⟨0, ∅, []⟩

/-- Without a fresh entry: wait for the scan of this Pi, give up, or scan. -/
def miss (cache : MeshAuthCache) (piPk : String) : Lookup × MeshAuthCache :=
  let stale := { cache with entries := cache.entries.erase piPk }
  if piPk ∈ cache.inFlight then (.wait, stale)
  else if maxConcurrentMeshAuthScans ≤ cache.inFlight.length then (.answer none, stale)
  else (.scan cache.generation, { stale with inFlight := cache.inFlight ++ [piPk] })

/-- The first critical section of `members_of`. -/
def lookup (cache : MeshAuthCache) (piPk : String) (now : Nat) : Lookup × MeshAuthCache :=
  match cache.entries.lookup piPk with
  | some entry =>
    if entry.isFresh now then (.answer entry.membership.members, cache) else cache.miss piPk
  | none => cache.miss piPk

/-- The key was cached no later than any other. -/
def isOldest (entries : Map String CacheEntry) (key : String) : Bool :=
  match entries.lookup key with
  | none => false
  | some entry => entries.entries.all fun other => decide (entry.cachedAt ≤ other.2.cachedAt)

/-- Make room for the Pi. Among entries of equal age the hash map decides which one goes. -/
def evict (entries : Map String CacheEntry) (piPk oldest : String) :
    Option (Map String CacheEntry) :=
  if meshAuthCacheCapacity ≤ Map.size entries ∧ piPk ∉ entries then
    if isOldest entries oldest then some (entries.erase oldest) else none
  else some entries

/-- What is cached for a scan. -/
def membershipOf : Option ScannedMembership → CachedMembership
  | some found => .found found.ownerHashes found.members
  | none => .absent

/-- The second critical section of `members_of`: the members to return, or nothing when the call
has to start over. -/
def finish (cache : MeshAuthCache) (piPk : String) (generation : UInt64)
    (membership : Option ScannedMembership) (now : Nat) (oldest : String) :
    Option (Option (Option (List String)) × MeshAuthCache) :=
  let done := { cache with inFlight := cache.inFlight.erase piPk }
  if cache.generation ≠ generation then some (none, done)
  else
    (evict (Map.filter (fun _ entry => entry.isFresh now) cache.entries) piPk oldest).map
      fun entries =>
        (some (membership.map ScannedMembership.members),
          { done with entries := entries.insert piPk ⟨membershipOf membership, now⟩ })

/-- An entry that a publish leaves in the cache. -/
def unaffected (currentMembers : List String) (ownerHash piPk : String) (entry : CacheEntry) :
    Bool :=
  !currentMembers.contains piPk &&
    match entry.membership with
    | .found ownerHashes _ => !ownerHashes.contains ownerHash
    | .absent => true

/-- Invalidate what a successful publish affects. -/
def invalidateOwnerPublish (codec : MeshCodec) (cache : MeshAuthCache) (ownerHash : String)
    (blob : Bytes) : MeshAuthCache :=
  let currentMembers := (codec.decodeMemberKeys blob).getD []
  { cache with
    generation := cache.generation + 1
    entries := Map.filter (unaffected currentMembers ownerHash) cache.entries }

end MeshAuthCache

/-! ## Calls and publishes -/

/-- Where an authorization call stands: before its first critical section, asleep until some
scan ends, before the store access of its own scan, or before its second critical section. -/
inductive AuthStage
  | lookup
  | waiting
  | scanning (generation : UInt64)
  | scanned (generation : UInt64) (membership : Option ScannedMembership)
  deriving DecidableEq

/-- A publish that wrote the store, and whether its invalidation has been carried out. -/
structure Publish where
  ownerHash : String
  blob : Bytes
  invalidated : Bool
  deriving DecidableEq

/-- A call of `is_authorized`, with the publishes known when it started and the number of
invalidations when its scan was admitted. -/
structure AuthCall where
  piA : String
  piB : String
  stage : AuthStage
  known : List Publish
  admittedAt : Nat

/-- A finished call. -/
structure AuthAnswer where
  piA : String
  piB : String
  authorized : Bool
  known : List Publish
  deriving DecidableEq

/-- The store, the cache and the calls in progress. The history holds the publishes in the order
of their writes, the contents of the store before the first and after each of them, the number
of invalidations and the answers given. -/
structure MeshWorld where
  store : MeshStore
  cache : MeshAuthCache
  calls : Nat → Option AuthCall
  publishes : List Publish
  contents : List (Map String MeshRow)
  invalidations : Nat
  answers : List AuthAnswer

/-- What Owners and calls do. -/
inductive MeshAction
  | publish (call : Upsert)
  | invalidate (index : Nat)
  | isAuthorized (index : Nat) (piA piB : String)
  | lookup (index now : Nat)
  | wake (index : Nat)
  | scan (index : Nat) (fails : Bool)
  | finish (index now : Nat) (oldest : String)

namespace MeshWorld

/-- A call goes on. -/
def setCall (w : MeshWorld) (index : Nat) (call : AuthCall) : MeshWorld :=
  { w with calls := Function.update w.calls index (some call) }

/-- Return from `is_authorized` with the members that were found. -/
def answer (w : MeshWorld) (index : Nat) (call : AuthCall) (members : Option (List String)) :
    MeshWorld :=
  let authorized := match members with
    | some members => members.contains call.piB
    | none => false
  { w with
    calls := Function.update w.calls index none
    answers := w.answers ++ [⟨call.piA, call.piB, authorized, call.known⟩] }

/-- Write the store. -/
def publish (w : MeshWorld) (call : Upsert) : MeshWorld :=
  match w.store.upsert call with
  | (.error _, store) => { w with store := store }
  | (.ok (), store) =>
    { w with
      store := store
      publishes := w.publishes ++ [⟨call.ownerPkHash, call.blob, false⟩]
      contents := w.contents ++ [store.rows] }

/-- Carry out the invalidation of a publish. -/
def invalidate (codec : MeshCodec) (w : MeshWorld) (index : Nat) : Option MeshWorld :=
  match w.publishes[index]? with
  | some publish =>
    if publish.invalidated then none
    else
      some { w with
        cache := w.cache.invalidateOwnerPublish codec publish.ownerHash publish.blob
        publishes := w.publishes.set index { publish with invalidated := true }
        invalidations := w.invalidations + 1 }
  | none => none

/-- The first critical section of a call. -/
def lookup (w : MeshWorld) (index now : Nat) (call : AuthCall) : Option MeshWorld :=
  match call.stage with
  | .lookup =>
    match w.cache.lookup call.piA now with
    | (.answer members, cache) => some ({ w with cache := cache }.answer index call members)
    | (.wait, cache) => some ({ w with cache := cache }.setCall index { call with stage := .waiting })
    | (.scan generation, cache) =>
      some ({ w with cache := cache }.setCall index
        { call with stage := .scanning generation, admittedAt := w.invalidations })
  | _ => none

/-- The store access of a call. A failed read finds nothing. -/
def scan (codec : MeshCodec) (w : MeshWorld) (index : Nat) (fails : Bool) (call : AuthCall) :
    Option MeshWorld :=
  match call.stage with
  | .scanning generation =>
    let membership := if fails then none else scanMembership codec call.piA w.store.rows
    some (w.setCall index { call with stage := .scanned generation membership })
  | _ => none

/-- The second critical section of a call. -/
def finish (w : MeshWorld) (index now : Nat) (oldest : String) (call : AuthCall) :
    Option MeshWorld :=
  match call.stage with
  | .scanned generation membership =>
    (w.cache.finish call.piA generation membership now oldest).map fun result =>
      match result with
      | (some members, cache) => { w with cache := cache }.answer index call members
      | (none, cache) => { w with cache := cache }.setCall index { call with stage := .lookup }
  | _ => none

end MeshWorld

/-- Any number of authorization calls and publishes. -/
def meshMachine (codec : MeshCodec) : Machine MeshWorld MeshAction where
  Init w := w.cache = .new ∧ w.calls = (fun _ => none) ∧ w.publishes = [] ∧
    w.contents = [w.store.rows] ∧ w.invalidations = 0 ∧ w.answers = []
  step w
    | .publish call => some (w.publish call)
    | .invalidate index => w.invalidate codec index
    | .isAuthorized index piA piB =>
      match w.calls index with
      | none => some (w.setCall index ⟨piA, piB, .lookup, w.publishes, 0⟩)
      | some _ => none
    | .lookup index now => (w.calls index).bind (w.lookup index now)
    | .wake index =>
      (w.calls index).bind fun call =>
        match call.stage with
        | .waiting => some (w.setCall index { call with stage := .lookup })
        | _ => none
    | .scan index fails => (w.calls index).bind (w.scan codec index fails)
    | .finish index now oldest => (w.calls index).bind (w.finish index now oldest)

end OutpostPi.Relay
