import Mathlib.Data.List.Dedup
import Mathlib.Data.List.MinMax
import OutpostPi.Lib.MultiMap
import OutpostPi.Relay.Connections

/-!
# Subscriptions of the relay

`SubscriptionIndex` is the graph shared by presence and room subscriptions: who watches a
target, and what a subscriber watches. The two directions are converse to each other, which
the structure keeps as a field. `replace`, `remove` and `removeAll` are its operations, and
`mem_replace`, `mem_remove` and `mem_removeAll` say which edges each of them leaves.

`PresenceManager` adds the last offline timestamp of each peer, bounded by evicting the oldest.
-/

set_option autoImplicit false

namespace OutpostPi.Relay

open OutpostPi.Lib

/-- Both directions of the subscription graph. -/
structure SubscriptionIndex where
  watchers : MultiMap PeerId PeerId
  targets : MultiMap PeerId PeerId
  converse : ∀ target subscriber,
    subscriber ∈ watchers.get target ↔ target ∈ targets.get subscriber

namespace SubscriptionIndex

/-- No subscription. -/
def empty : SubscriptionIndex := ⟨.empty, .empty, by simp⟩

/-- Everyone who watches a target. -/
def subscribersOf (index : SubscriptionIndex) (target : PeerId) : List PeerId :=
  index.watchers.get target

/-- Everything that a subscriber watches. -/
def subscriptionsBy (index : SubscriptionIndex) (subscriber : PeerId) : List PeerId :=
  index.targets.get subscriber

/-- Remove every target watched by a subscriber. -/
def removeAll (index : SubscriptionIndex) (subscriber : PeerId) : SubscriptionIndex where
  watchers := index.watchers.eraseEdges (index.subscriptionsBy subscriber) subscriber
  targets := index.targets.put subscriber [] List.nodup_nil
  converse := by
    intro target subscriber'
    rw [MultiMap.mem_eraseEdges, index.converse, MultiMap.get_put, subscriptionsBy]
    by_cases same : subscriber' = subscriber
    · subst same
      simp
    · simp [same]

/-- Replace a subscriber's full list of targets. An empty list leaves no entry. -/
def replace (index : SubscriptionIndex) (subscriber : PeerId) (targets : List PeerId) :
    SubscriptionIndex :=
  let cleared := index.removeAll subscriber
  { watchers := cleared.watchers.insertEdges targets.dedup subscriber
    targets := cleared.targets.put subscriber targets.dedup (List.nodup_dedup targets)
    converse := by
      intro target subscriber'
      rw [MultiMap.mem_insertEdges, cleared.converse, MultiMap.get_put]
      by_cases same : subscriber' = subscriber
      · subst same
        have none : target ∉ cleared.targets.get subscriber' := by
          simp [cleared, removeAll, MultiMap.get_put]
        simp [none]
      · simp [same] }

/-- Remove some of the targets of a subscriber. -/
def remove (index : SubscriptionIndex) (subscriber : PeerId) (targets : List PeerId) :
    SubscriptionIndex where
  watchers := index.watchers.eraseEdges targets subscriber
  targets := index.targets.put subscriber (targets.foldl List.erase (index.targets.get subscriber))
    (List.diff_eq_foldl _ targets ▸ (index.targets.nodup_get subscriber).diff)
  converse := by
    intro target subscriber'
    rw [MultiMap.mem_eraseEdges, index.converse, MultiMap.get_put, ← List.diff_eq_foldl]
    by_cases same : subscriber' = subscriber
    · subst same
      simp [(index.targets.nodup_get subscriber').mem_sdiff_iff]
    · simp [same]

variable {index : SubscriptionIndex} {subscriber subscriber' target : PeerId}
  {peers : List PeerId}

theorem mem_removeAll :
    subscriber' ∈ (index.removeAll subscriber).subscribersOf target ↔
      subscriber' ≠ subscriber ∧ subscriber' ∈ index.subscribersOf target := by
  rw [subscribersOf, removeAll, MultiMap.mem_eraseEdges, subscribersOf, subscriptionsBy,
    ← index.converse]
  constructor
  · rintro ⟨mem, other⟩
    refine ⟨?_, mem⟩
    rintro rfl
    exact other ⟨mem, rfl⟩
  · rintro ⟨other, mem⟩
    exact ⟨mem, fun both => other both.2⟩

theorem mem_replace :
    subscriber' ∈ (index.replace subscriber peers).subscribersOf target ↔
      (subscriber' = subscriber ∧ target ∈ peers) ∨
        (subscriber' ≠ subscriber ∧ subscriber' ∈ index.subscribersOf target) := by
  rw [← mem_removeAll, subscribersOf, replace, MultiMap.mem_insertEdges, List.mem_dedup,
    and_comm (a := target ∈ peers)]
  rfl

theorem mem_remove :
    subscriber' ∈ (index.remove subscriber peers).subscribersOf target ↔
      subscriber' ∈ index.subscribersOf target ∧
        ¬ (subscriber' = subscriber ∧ target ∈ peers) := by
  rw [subscribersOf, remove, MultiMap.mem_eraseEdges, and_comm (a := target ∈ peers)]
  rfl

end SubscriptionIndex

/-! ## Managers -/

/-- Presence subscriptions and the last offline timestamp of each peer. -/
structure PresenceManager where
  subscriptions : SubscriptionIndex
  lastOfflineTs : Map PeerId Int

/-- Room subscriptions. -/
structure RoomManager where
  subscriptions : SubscriptionIndex

/-- How many offline timestamps are retained. -/
def maxPresenceOfflineTimestamps : Nat := 1024

namespace PresenceManager

/-- No subscription and no timestamp. -/
def new : PresenceManager := ⟨.empty, ∅⟩

/-- The peer with the oldest timestamp. -/
def oldestPeer (manager : PresenceManager) : Option PeerId :=
  (@List.argmin _ _ Int.instLinearOrder.toPreorder _ (fun slot => slot.2)
    manager.lastOfflineTs.entries).map Sigma.fst

/-- Record when a peer went offline, evicting the oldest timestamp at the retention cap. -/
def recordOffline (manager : PresenceManager) (peer : PeerId) (ts : Int) : PresenceManager :=
  let retained :=
    if peer ∉ manager.lastOfflineTs ∧
        maxPresenceOfflineTimestamps ≤ manager.lastOfflineTs.entries.length then
      match manager.oldestPeer with
      | some oldest => manager.lastOfflineTs.erase oldest
      | none => manager.lastOfflineTs
    else manager.lastOfflineTs
  { manager with lastOfflineTs := retained.insert peer ts }

end PresenceManager

/-- No subscription. -/
def RoomManager.new : RoomManager := ⟨.empty⟩

end OutpostPi.Relay
