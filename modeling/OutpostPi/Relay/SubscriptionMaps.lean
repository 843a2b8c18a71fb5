import OutpostPi.Lib.History
import OutpostPi.Relay.Subscriptions

/-!
# The two maps of the subscription index

`SubscriptionIndex` in the source holds two hash maps of hash sets, without any link between
them. `SubscriptionMaps` models them as they are, with the loops that add and remove the reverse
edges one at a time. A removal of some targets may leave an empty set behind until its loop has
ended.

`Represents` relates the maps to a well-formed index, and each operation keeps it. `Watches`
reads off the calls alone which targets a subscriber has. In `subscribersOf_faithful` the maps
agree with it after any calls.
-/

set_option autoImplicit false

namespace OutpostPi.Relay

open OutpostPi.Lib

/-- Who watches a target, and what a subscriber watches. -/
structure SubscriptionMaps where
  watchers : Map PeerId (List PeerId)
  targets : Map PeerId (List PeerId)

namespace SubscriptionMaps

/-- Nobody is subscribed. -/
def empty : SubscriptionMaps := ⟨∅, ∅⟩

/-- Drop a subscriber of a target, and the target with its last subscriber. -/
def removeReverseEdge (maps : SubscriptionMaps) (target subscriber : PeerId) : SubscriptionMaps :=
  match maps.watchers.lookup target with
  | none => maps
  | some subscribers =>
    let kept := subscribers.erase subscriber
    if kept = [] then { maps with watchers := maps.watchers.erase target }
    else { maps with watchers := maps.watchers.insert target kept }

/-- Add a subscriber of a target. -/
def insertReverseEdge (maps : SubscriptionMaps) (target subscriber : PeerId) : SubscriptionMaps :=
  { maps with
    watchers :=
      maps.watchers.insert target (((maps.watchers.lookup target).getD []).insert subscriber) }

/-- Drop the subscriptions of a connection. -/
def removeAll (maps : SubscriptionMaps) (subscriber : PeerId) : SubscriptionMaps :=
  match maps.targets.lookup subscriber with
  | none => maps
  | some targets =>
    targets.foldl (fun maps target => maps.removeReverseEdge target subscriber)
      { maps with targets := maps.targets.erase subscriber }

/-- A connection subscribes to these targets and no others. -/
def replace (maps : SubscriptionMaps) (subscriber : PeerId) (targets : List PeerId) :
    SubscriptionMaps :=
  let newSet := targets.dedup
  let linked :=
    newSet.foldl (fun maps target => maps.insertReverseEdge target subscriber)
      (maps.removeAll subscriber)
  if newSet = [] then linked
  else { linked with targets := linked.targets.insert subscriber newSet }

/-- One round of the loop in `remove`, which may leave the subscriber an empty set. -/
def removeTarget (maps : SubscriptionMaps) (subscriber target : PeerId) : SubscriptionMaps :=
  let unlinked := maps.removeReverseEdge target subscriber
  match unlinked.targets.lookup subscriber with
  | none => unlinked
  | some subscriptions =>
    { unlinked with targets := unlinked.targets.insert subscriber (subscriptions.erase target) }

/-- A connection gives up subscriptions. -/
def remove (maps : SubscriptionMaps) (subscriber : PeerId) (targets : List PeerId) :
    SubscriptionMaps :=
  let removed := targets.foldl (fun maps target => maps.removeTarget subscriber target) maps
  if removed.targets.lookup subscriber = some [] then
    { removed with targets := removed.targets.erase subscriber }
  else removed

/-- All subscribers that watch a target. -/
def subscribersOf (maps : SubscriptionMaps) (target : PeerId) : List PeerId :=
  (maps.watchers.lookup target).getD []

/-- The current target set of a subscriber. -/
def subscriptionsBy (maps : SubscriptionMaps) (subscriber : PeerId) : List PeerId :=
  (maps.targets.lookup subscriber).getD []

/-- One pair of a subscriber and a target for each member of a target set. -/
def edges (maps : SubscriptionMaps) : List (PeerId × PeerId) :=
  maps.targets.entries.flatMap fun slot => slot.2.map (Prod.mk slot.1)

/-! ## Refinement of the well-formed index -/

/-- Both maps hold what a well-formed index holds. -/
structure Represents (maps : SubscriptionMaps) (index : SubscriptionIndex) : Prop where
  watchers : ∀ target, maps.watchers.lookup target = index.watchers.sets.lookup target
  targets : ∀ subscriber, maps.targets.lookup subscriber = index.targets.sets.lookup subscriber

variable {maps : SubscriptionMaps} {index : SubscriptionIndex} {subscriber target : PeerId}
  {peers : List PeerId}

theorem represents_empty : Represents empty .empty :=
  ⟨fun _ => rfl, fun _ => rfl⟩

/-! ### Reverse edges -/

/-- The first map holds the edges of a multimap. -/
def Watched (maps : SubscriptionMaps) (edges : MultiMap PeerId PeerId) : Prop :=
  ∀ target, maps.watchers.lookup target = edges.sets.lookup target

theorem targets_removeReverseEdge :
    (maps.removeReverseEdge target subscriber).targets = maps.targets := by
  rw [removeReverseEdge]
  split
  · rfl
  · dsimp only
    split <;> rfl

variable {edges : MultiMap PeerId PeerId}

theorem watched_removeReverseEdge (target subscriber : PeerId) (watched : maps.Watched edges) :
    (maps.removeReverseEdge target subscriber).Watched (edges.eraseEdge target subscriber) := by
  intro other
  have before := watched target
  rw [MultiMap.eraseEdge, MultiMap.lookup_put]
  cases found : maps.watchers.lookup target with
  | none =>
    -- Without the target there is no set, and nothing changes.
    have none : edges.get target = [] := by rw [MultiMap.get, ← before, found]; rfl
    simp only [removeReverseEdge, found, none, List.erase_nil, if_true]
    split
    · next same => rw [same, found]
    · exact watched other
  | some subscribers =>
    have here : edges.get target = subscribers := by rw [MultiMap.get, ← before, found]; rfl
    simp only [removeReverseEdge, found, here]
    by_cases last : subscribers.erase subscriber = []
    · rw [if_pos last, if_pos last]
      split
      · next same => rw [same, AList.lookup_erase]
      · next distinct => rw [AList.lookup_erase_ne distinct, watched other]
    · rw [if_neg last, if_neg last]
      split
      · next same => rw [same, AList.lookup_insert]
      · next distinct => rw [AList.lookup_insert_ne distinct, watched other]

theorem watched_insertReverseEdge (watched : maps.Watched edges) :
    (maps.insertReverseEdge target subscriber).Watched (edges.insertEdge target subscriber) := by
  intro other
  have nonempty : (edges.get target).insert subscriber ≠ [] :=
    List.ne_nil_of_mem (List.mem_insert_self ..)
  rw [MultiMap.insertEdge, MultiMap.lookup_put, if_neg nonempty, insertReverseEdge,
    watched target]
  split
  · next same =>
    rw [same, AList.lookup_insert]
    rfl
  · next distinct => rw [AList.lookup_insert_ne distinct, watched other]

/-- The loop that drops a subscriber of several targets. -/
theorem removeReverseEdges_spec (subscriber : PeerId) (targets : List PeerId)
    (watched : maps.Watched edges) :
    (targets.foldl (fun maps target => maps.removeReverseEdge target subscriber) maps).Watched
        (edges.eraseEdges targets subscriber) ∧
      (targets.foldl (fun maps target => maps.removeReverseEdge target subscriber) maps).targets =
        maps.targets := by
  induction targets generalizing maps edges with
  | nil => exact ⟨watched, rfl⟩
  | cons target targets ih =>
    obtain ⟨watched', same⟩ := ih (watched_removeReverseEdge target subscriber watched)
    exact ⟨watched', same.trans targets_removeReverseEdge⟩

/-- The loop that adds a subscriber of several targets. -/
theorem insertReverseEdges_spec (subscriber : PeerId) (targets : List PeerId)
    (watched : maps.Watched edges) :
    (targets.foldl (fun maps target => maps.insertReverseEdge target subscriber) maps).Watched
        (edges.insertEdges targets subscriber) ∧
      (targets.foldl (fun maps target => maps.insertReverseEdge target subscriber) maps).targets =
        maps.targets := by
  induction targets generalizing maps edges with
  | nil => exact ⟨watched, rfl⟩
  | cons target targets ih => exact ih (watched_insertReverseEdge watched)

/-! ### Operations -/

theorem represents_removeAll (subscriber : PeerId) (represents : Represents maps index) :
    Represents (maps.removeAll subscriber) (index.removeAll subscriber) := by
  have here := represents.targets subscriber
  have cleared : ∀ other, (index.removeAll subscriber).targets.sets.lookup other =
      if other = subscriber then none else index.targets.sets.lookup other := by
    intro other
    exact MultiMap.lookup_put ..
  cases found : maps.targets.lookup subscriber with
  -- a subscriber without an entry watches nobody
  | none =>
    have none : index.subscriptionsBy subscriber = [] := by
      rw [SubscriptionIndex.subscriptionsBy, MultiMap.get, ← here, found]
      rfl
    have unchanged : maps.removeAll subscriber = maps := by rw [removeAll, found]
    rw [unchanged]
    refine ⟨?_, ?_⟩
    · intro target
      change _ = (index.watchers.eraseEdges (index.subscriptionsBy subscriber) subscriber).sets.lookup
        target
      rw [none]
      exact represents.watchers target
    · intro other
      rw [cleared, represents.targets other]
      split
      · next same => rw [same, ← here, found]
      · rfl
  -- the entry goes, and with it every edge that it lists
  | some targets =>
    have held : index.subscriptionsBy subscriber = targets := by
      rw [SubscriptionIndex.subscriptionsBy, MultiMap.get, ← here, found]
      rfl
    have erased : Watched { maps with targets := maps.targets.erase subscriber } index.watchers :=
      represents.watchers
    obtain ⟨watched, same⟩ := removeReverseEdges_spec subscriber targets erased
    rw [removeAll, found]
    refine ⟨?_, ?_⟩
    · intro target
      change _ = (index.watchers.eraseEdges (index.subscriptionsBy subscriber) subscriber).sets.lookup
        target
      rw [held]
      exact watched target
    · intro other
      rw [cleared]
      dsimp only
      rw [same]
      split
      · next same => rw [same, AList.lookup_erase]
      · next distinct => rw [AList.lookup_erase_ne distinct, represents.targets other]

theorem represents_replace (represents : Represents maps index) :
    Represents (maps.replace subscriber peers) (index.replace subscriber peers) := by
  have cleared := represents_removeAll subscriber represents
  obtain ⟨watched, same⟩ :=
    insertReverseEdges_spec subscriber peers.dedup cleared.watchers
  have put : ∀ other, (index.replace subscriber peers).targets.sets.lookup other =
      if other = subscriber then (if peers.dedup = [] then none else some peers.dedup)
      else (index.removeAll subscriber).targets.sets.lookup other := by
    intro other
    exact MultiMap.lookup_put _ _ _ _ (List.nodup_dedup peers)
  have removed : (index.removeAll subscriber).targets.sets.lookup subscriber = none := by
    rw [SubscriptionIndex.removeAll, MultiMap.lookup_put, if_pos rfl, if_pos rfl]
  by_cases none : peers.dedup = []
  · rw [replace, if_pos none]
    refine ⟨watched, ?_⟩
    intro other
    rw [put, if_pos none, same, cleared.targets other]
    split
    · next here => rw [here, removed]
    · rfl
  · rw [replace, if_neg none]
    refine ⟨watched, ?_⟩
    intro other
    rw [put, if_neg none]
    dsimp only
    rw [same]
    split
    · next here => rw [here, AList.lookup_insert]
    · next distinct => rw [AList.lookup_insert_ne distinct, cleared.targets other]

/-- The loop of `remove`. The set of the subscriber shrinks in place and stays when it is empty,
and the sets of the others do not change. -/
theorem removeTargets_spec (subscriber : PeerId) (targets : List PeerId)
    (watched : maps.Watched edges) :
    (targets.foldl (fun maps target => maps.removeTarget subscriber target) maps).Watched
        (edges.eraseEdges targets subscriber) ∧
      ∀ other,
        (targets.foldl (fun maps target => maps.removeTarget subscriber target)
            maps).targets.lookup other =
          if other = subscriber then
            (maps.targets.lookup subscriber).map (targets.foldl List.erase ·)
          else maps.targets.lookup other := by
  induction targets generalizing maps edges with
  | nil =>
    refine ⟨watched, ?_⟩
    intro other
    split
    · next same =>
      rw [same]
      simp
    · rfl
  | cons target targets ih =>
    -- one target less in the entry of the subscriber
    have step : ∀ other, (maps.removeTarget subscriber target).targets.lookup other =
        if other = subscriber then (maps.targets.lookup subscriber).map (·.erase target)
        else maps.targets.lookup other := by
      intro other
      cases found : maps.targets.lookup subscriber with
      | none =>
        simp only [removeTarget, targets_removeReverseEdge, found]
        by_cases same : other = subscriber
        · rw [if_pos same, same, found]
          rfl
        · rw [if_neg same]
      | some subscriptions =>
        simp only [removeTarget, targets_removeReverseEdge, found]
        by_cases same : other = subscriber
        · rw [if_pos same, same, AList.lookup_insert]
          rfl
        · rw [if_neg same, AList.lookup_insert_ne same]
    -- and one edge less in the reverse map
    have unlinked : (maps.removeTarget subscriber target).Watched
        (edges.eraseEdge target subscriber) := by
      have dropped := watched_removeReverseEdge target subscriber watched
      simp only [removeTarget]
      split
      · exact dropped
      · exact dropped
    obtain ⟨watched', rest⟩ := ih unlinked
    refine ⟨watched', ?_⟩
    intro other
    rw [List.foldl_cons, rest, step, step, if_pos rfl, Option.map_map]
    split
    · rfl
    · rfl

theorem represents_remove (represents : Represents maps index) :
    Represents (maps.remove subscriber peers) (index.remove subscriber peers) := by
  obtain ⟨watched, sets⟩ := removeTargets_spec subscriber peers represents.watchers
  have put : ∀ other, (index.remove subscriber peers).targets.sets.lookup other =
      if other = subscriber then
        (if peers.foldl List.erase (index.targets.get subscriber) = [] then none
          else some (peers.foldl List.erase (index.targets.get subscriber)))
      else index.targets.sets.lookup other := by
    intro other
    rw [SubscriptionIndex.remove, MultiMap.lookup_put]
  have here := represents.targets subscriber
  have left := sets subscriber
  rw [if_pos rfl] at left
  simp only [remove]
  -- An empty set that the loop left behind goes with its key.
  split
  · next drained =>
    refine ⟨watched, ?_⟩
    intro other
    rw [put]
    dsimp only
    split
    · next same =>
      rw [same, AList.lookup_erase]
      rw [drained] at left
      cases found : maps.targets.lookup subscriber with
      | none => rw [found] at left; cases left
      | some subscriptions =>
        have got : index.targets.get subscriber = subscriptions := by
          rw [MultiMap.get, ← here, found]; rfl
        rw [found, Option.map_some, Option.some.injEq] at left
        rw [got, if_pos left.symm]
    · next distinct =>
      rw [AList.lookup_erase_ne distinct, sets, if_neg distinct, represents.targets other]
  · next kept =>
    refine ⟨watched, ?_⟩
    intro other
    rw [put, sets]
    split
    · cases found : maps.targets.lookup subscriber with
      | none =>
        have got : index.targets.get subscriber = [] := by
          rw [MultiMap.get, ← here, found]; rfl
        have nothing : peers.foldl List.erase [] = ([] : List PeerId) := by
          rw [← List.diff_eq_foldl, List.nil_diff]
        rw [got, nothing, if_pos rfl]
        rfl
      | some subscriptions =>
        have got : index.targets.get subscriber = subscriptions := by
          rw [MultiMap.get, ← here, found]; rfl
        rw [left, found, Option.map_some, Option.some.injEq] at kept
        rw [got, if_neg kept]
        rfl
    · next distinct => exact represents.targets other

end SubscriptionMaps

/-! ## Calls -/

/-- A call of the index. -/
inductive SubscriptionCall
  | replace (subscriber : PeerId) (targets : List PeerId)
  | remove (subscriber : PeerId) (targets : List PeerId)
  | removeAll (subscriber : PeerId)
  deriving DecidableEq

namespace SubscriptionCall

/-- The call gives a subscriber a target. -/
def Adds : SubscriptionCall → PeerId → PeerId → Prop
  | .replace caller targets, subscriber, target => caller = subscriber ∧ target ∈ targets
  | _, _, _ => False

/-- The call takes a target away from a subscriber, if it had it. -/
def Drops : SubscriptionCall → PeerId → PeerId → Prop
  | .replace caller targets, subscriber, target => caller = subscriber ∧ target ∉ targets
  | .remove caller targets, subscriber, target => caller = subscriber ∧ target ∈ targets
  | .removeAll caller, subscriber, _ => caller = subscriber

end SubscriptionCall

open SubscriptionCall

/-- Some call gave the subscriber the target and no later one took it away. -/
def Watches (calls : List SubscriptionCall) (subscriber target : PeerId) : Prop :=
  Stands (fun call => call.Adds subscriber target) (fun call => call.Drops subscriber target) calls

namespace SubscriptionMaps

/-- What a call does to the two maps. -/
def apply (maps : SubscriptionMaps) : SubscriptionCall → SubscriptionMaps
  | .replace subscriber targets => maps.replace subscriber targets
  | .remove subscriber targets => maps.remove subscriber targets
  | .removeAll subscriber => maps.removeAll subscriber

/-- The maps after some calls. -/
def run (calls : List SubscriptionCall) : SubscriptionMaps := calls.foldl apply empty

end SubscriptionMaps

namespace SubscriptionIndex

/-- What a call does to the relation. -/
def apply (index : SubscriptionIndex) : SubscriptionCall → SubscriptionIndex
  | .replace subscriber targets => index.replace subscriber targets
  | .remove subscriber targets => index.remove subscriber targets
  | .removeAll subscriber => index.removeAll subscriber

/-- A call adds and drops the edges that it names. -/
theorem mem_apply {index : SubscriptionIndex} {call : SubscriptionCall}
    {subscriber target : PeerId} :
    subscriber ∈ (index.apply call).subscribersOf target ↔
      call.Adds subscriber target ∨
        subscriber ∈ index.subscribersOf target ∧ ¬ call.Drops subscriber target := by
  cases call with
  | replace caller targets =>
    simp only [apply, mem_replace, Adds, Drops]
    by_cases same : caller = subscriber
    · subst same
      by_cases member : target ∈ targets <;> simp [member]
    · simp [same, Ne.symm same]
  | remove caller targets =>
    simp only [apply, mem_remove, Adds, Drops, false_or, eq_comm (a := caller)]
  | removeAll caller =>
    simp only [apply, mem_removeAll, Adds, Drops, false_or, eq_comm (a := caller), and_comm, ne_eq]

end SubscriptionIndex

namespace SubscriptionMaps

theorem represents_apply {maps : SubscriptionMaps} {index : SubscriptionIndex}
    (represents : Represents maps index) (call : SubscriptionCall) :
    Represents (maps.apply call) (index.apply call) := by
  cases call with
  | replace subscriber targets => exact represents_replace represents
  | remove subscriber targets => exact represents_remove represents
  | removeAll subscriber => exact represents_removeAll subscriber represents

/-- After any calls the maps hold a well-formed index whose edges are those that the calls
leave. -/
theorem run_represents (calls : List SubscriptionCall) :
    ∃ index, Represents (run calls) index ∧
      ∀ target subscriber, subscriber ∈ index.subscribersOf target ↔
        Watches calls subscriber target := by
  induction calls using List.reverseRecOn with
  | nil =>
    refine ⟨.empty, represents_empty, ?_⟩
    intro target subscriber
    simp [SubscriptionIndex.subscribersOf, SubscriptionIndex.empty, Watches, not_stands_nil]
  | append_singleton calls call ih =>
    obtain ⟨index, represents, edges⟩ := ih
    refine ⟨index.apply call, ?_, ?_⟩
    · rw [run, List.foldl_concat]
      exact represents_apply represents call
    · intro target subscriber
      rw [SubscriptionIndex.mem_apply, Watches, stands_concat, edges]
      rfl

/-- A map without empty sets has at most one key for each member of its sets. -/
theorem size_le_edges {maps : SubscriptionMaps} {index : SubscriptionIndex}
    (represents : Represents maps index) :
    maps.watchers.size ≤ maps.edges.length ∧ maps.targets.size ≤ maps.edges.length := by
  have mem_edges : ∀ subscriber target, subscriber ∈ index.subscribersOf target →
      (subscriber, target) ∈ maps.edges := by
    intro subscriber target watching
    have held := (index.converse target subscriber).mp watching
    rw [MultiMap.get, ← represents.targets subscriber] at held
    cases found : maps.targets.lookup subscriber with
    | none => rw [found] at held; cases held
    | some targets =>
      rw [found] at held
      exact List.mem_flatMap.mpr ⟨⟨subscriber, targets⟩, AList.mem_lookup_iff.mp found,
        List.mem_map.mpr ⟨target, held, rfl⟩⟩
  refine ⟨?_, ?_⟩
  · -- Each target with a set is the target of some edge.
    have distinct : maps.watchers.keys.Nodup := maps.watchers.keys_nodup
    have covered : maps.watchers.keys ⊆ maps.edges.map Prod.snd := by
      intro target mem
      obtain ⟨watchers, found⟩ := Map.mem_iff_lookup.mp (AList.mem_keys.mpr mem)
      rw [represents.watchers target] at found
      obtain ⟨subscriber, member⟩ :=
        List.exists_mem_of_ne_nil _ (index.watchers.nonempty target watchers found)
      refine List.mem_map.mpr ⟨(subscriber, target), mem_edges subscriber target ?_, rfl⟩
      rw [SubscriptionIndex.subscribersOf, MultiMap.get, found]
      exact member
    simpa [Map.size, AList.keys, List.keys] using
      (List.subperm_of_subset distinct covered).length_le
  · have distinct : maps.targets.keys.Nodup := maps.targets.keys_nodup
    have covered : maps.targets.keys ⊆ maps.edges.map Prod.fst := by
      intro subscriber mem
      obtain ⟨targets, found⟩ := Map.mem_iff_lookup.mp (AList.mem_keys.mpr mem)
      rw [represents.targets subscriber] at found
      obtain ⟨target, member⟩ :=
        List.exists_mem_of_ne_nil _ (index.targets.nonempty subscriber targets found)
      refine List.mem_map.mpr ⟨(subscriber, target), mem_edges subscriber target ?_, rfl⟩
      rw [SubscriptionIndex.subscribersOf, index.converse, MultiMap.get, found]
      exact member
    simpa [Map.size, AList.keys, List.keys] using
      (List.subperm_of_subset distinct covered).length_le

/-- After any calls, the subscribers of a target are those whose current target set contains it,
each once, the two maps are converse to each other, and neither keeps a key with an empty set, so
there are at most as many keys as edges. -/
theorem subscribersOf_faithful (calls : List SubscriptionCall) :
    (∀ target, ((run calls).subscribersOf target).Nodup ∧
      ∀ subscriber, subscriber ∈ (run calls).subscribersOf target ↔
        Watches calls subscriber target) ∧
    (∀ target subscriber, subscriber ∈ (run calls).subscribersOf target ↔
      target ∈ (run calls).subscriptionsBy subscriber) ∧
    (∀ target subscribers, (run calls).watchers.lookup target = some subscribers →
      subscribers ≠ []) ∧
    (∀ subscriber targets, (run calls).targets.lookup subscriber = some targets → targets ≠ []) ∧
    (run calls).watchers.size ≤ (run calls).edges.length ∧
    (run calls).targets.size ≤ (run calls).edges.length := by
  obtain ⟨index, represents, watches⟩ := run_represents calls
  have watchers : ∀ target, (run calls).subscribersOf target = index.subscribersOf target := by
    intro target
    rw [subscribersOf, represents.watchers target]
    rfl
  have targets : ∀ subscriber,
      (run calls).subscriptionsBy subscriber = index.subscriptionsBy subscriber := by
    intro subscriber
    rw [subscriptionsBy, represents.targets subscriber]
    rfl
  refine ⟨?_, ?_, ?_, ?_, size_le_edges represents⟩
  · intro target
    rw [watchers]
    exact ⟨index.watchers.nodup_get target, watches target⟩
  · intro target subscriber
    rw [watchers, targets]
    exact index.converse target subscriber
  · intro target subscribers found
    rw [represents.watchers target] at found
    exact index.watchers.nonempty target subscribers found
  · intro subscriber targets found
    rw [represents.targets subscriber] at found
    exact index.targets.nonempty subscriber targets found

end SubscriptionMaps

end OutpostPi.Relay
