import OutpostPi.Session.UserIngress

/-!
# One outcome per user delivery

Two things keep the outcomes of user messages apart. The records of what was delivered and of what
is in flight keep an attempt from being made twice (`Ledger`), until a reset discards them. And an
id that was answered with an error must not be alive any more (`Outcomes`), which fails where a
second delivery of the id waits in the queue.

`one_outcome_per_delivery` is the result for the runs that avoid both.
-/

set_option autoImplicit false

namespace OutpostPi.Session.UserIngress

open OutpostPi.Lib

/-! ## Clean runs -/

namespace Ingress

/-- A caller goes on cleanly: when it answers its id with an error, no other delivery of the id is
alive; and a place in a full queue is made for a first transmission only, by an id that is not
alive otherwise. -/
def HandlesCleanly (s : Ingress) (caller : Caller) : WakeResult → Prop
  | .ok => True
  | .rejected _ => ¬ s.Alive caller.id
  | .thrown _ => caller.logs = false → ¬ s.Alive caller.id
  | .recoverable _ =>
    (s.expired caller = true → ¬ s.Alive caller.id) ∧
      (s.expired caller = false → ∀ dropped ∈ s.evictee, ¬ s.shift.Alive dropped.prepared.id ∧
        dropped.prepared.id ≠ caller.id ∧ caller.prepared.retransmission = false)

instance (s : Ingress) (caller : Caller) :
    (result : WakeResult) → Decidable (s.HandlesCleanly caller result)
  | .ok => isTrue trivial
  | .rejected _ => inferInstanceAs (Decidable (¬ _))
  | .thrown _ => inferInstanceAs (Decidable (_ → ¬ _))
  | .recoverable _ => inferInstanceAs (Decidable (_ ∧ (_ → ∀ dropped ∈ s.evictee, _)))

/-- No reset has discarded the record of an id in the current session. -/
def Retained (s : Ingress) (id : String) : Prop := dedupeKey s.sessionId id ∉ s.discarded

instance (s : Ingress) (id : String) : Decidable (s.Retained id) :=
  inferInstanceAs (Decidable (¬ _))

/-- The state in which the queue has been taken out. -/
def spliced (s : Ingress) : Ingress := { s with pendingDeliveryQueue := [] }

end Ingress

open Ingress in
/-- No attempt is made for an id whose record a reset has discarded, and callers and timers answer
an id with an error only if no other delivery of it is alive. -/
def Clean (s : Ingress) : Label → Prop
  | .userMessage _ id _ => s.fenceReason = none →
    (s.disposed = true → ¬ s.Alive id) ∧ (s.disposed = false → s.Retained id)
  | .queuedMessage id _ => s.fenceReason = none → s.Retained id
  | .drain => ∀ entry ∈ s.pendingDeliveryQueue, s.Retained entry.prepared.id
  | .timeout queueId => ∀ entry ∈ s.findEntry queueId, s.renews entry = false →
    ¬ (s.splice queueId).Alive entry.prepared.id
  | .quit => ∀ entry ∈ s.pendingDeliveryQueue, ¬ s.spliced.Alive entry.prepared.id
  | .resume j => ∀ outcome ∈ s.resumed[j]?, (s.takeResumed j).HandlesCleanly outcome.1 outcome.2
  | .tick _ | .settle _ _ _ | .resetSessionForNew | .sessionChanges _ | .disposedChanges _
  | .fenceChanges _ | .replacingChanges _ => True

instance (s : Ingress) : (label : Label) → Decidable (Clean s label)
  | .userMessage _ _ _ => inferInstanceAs (Decidable (_ → _ ∧ _))
  | .queuedMessage _ _ => inferInstanceAs (Decidable (_ → _))
  | .drain => inferInstanceAs (Decidable (∀ entry ∈ s.pendingDeliveryQueue, _))
  | .timeout queueId => inferInstanceAs (Decidable (∀ entry ∈ s.findEntry queueId, _ → _))
  | .quit => inferInstanceAs (Decidable (∀ entry ∈ s.pendingDeliveryQueue, _))
  | .resume j => inferInstanceAs (Decidable (∀ outcome ∈ s.resumed[j]?, _))
  | .tick _ | .settle _ _ _ | .resetSessionForNew | .sessionChanges _ | .disposedChanges _
  | .fenceChanges _ | .replacingChanges _ => isTrue trivial

/-! ## The records of attempts -/

/-- What decides whether an attempt is begun, with the deliveries that have woken the agent. -/
structure Records where
  woken : List (String × String)
  delivered : List (String × String)
  inflight : Map String Nat
  attempts : Map Nat Attempt
  nextAttempt : Nat
  discarded : List String

def Ingress.records (s : Ingress) : Records where
  woken := wokenIn s.history
  delivered := s.deliveredUserMessageIds
  inflight := s.inflightUserDeliveries
  attempts := s.attempts
  nextAttempt := s.nextAttempt
  discarded := s.discarded

/-- What has woken the agent is recorded, what is in flight is registered, and the two are apart,
up to what a reset has discarded. -/
structure Ledger (r : Records) : Prop where
  once : r.woken.Nodup
  recorded : ∀ d ∈ r.woken, d ∈ r.delivered ∨ dedupeKey d.1 d.2 ∈ r.discarded
  registered : ∀ n attempt, r.attempts.lookup n = some attempt →
    r.inflight.lookup attempt.key = some n ∨ attempt.key ∈ r.discarded
  distinct : ∀ n m first second, r.attempts.lookup n = some first →
    r.attempts.lookup m = some second → first.key = second.key → n = m
  unwoken : ∀ n attempt, r.attempts.lookup n = some attempt →
    (attempt.sessionId, attempt.id) ∉ r.woken
  numbered : ∀ n attempt, r.attempts.lookup n = some attempt → n < r.nextAttempt

section Ledger

variable {s s' : Ingress}

theorem records_sendDeliveryError (s : Ingress) (prepared : PreparedUserDelivery)
    (detail : String) : (s.sendDeliveryError prepared detail).records = s.records := rfl

/-- Queueing leaves the records alone. -/
theorem records_enqueuePendingDelivery (s : Ingress) (prepared : PreparedUserDelivery)
    (enqueuedAt : Nat) : (s.enqueuePendingDelivery prepared enqueuedAt).records = s.records := by
  rw [Ingress.enqueuePendingDelivery]
  split
  · rfl
  · rfl

theorem records_queueAgain (s : Ingress) (caller : Caller) :
    (s.queueAgain caller).records = s.records := by
  rw [Ingress.queueAgain]
  split
  · exact records_enqueuePendingDelivery s caller.prepared _
  · exact records_enqueuePendingDelivery s caller.prepared _

/-- A caller that goes on leaves the records alone. -/
theorem records_handle (s : Ingress) (caller : Caller) (result : WakeResult) :
    (s.handle caller result).records = s.records := by
  cases result with
  | ok => rfl
  | recoverable detail =>
    rw [Ingress.handle]
    split
    · rfl
    · exact records_queueAgain s caller
  | rejected detail => rfl
  | thrown detail =>
    rw [Ingress.handle]
    split <;> rfl

theorem records_failPendingDeliveryQueue (s : Ingress) (detail : String) :
    (s.failPendingDeliveryQueue detail).records = s.records := by
  have fold : ∀ (entries : List PendingDeliveryEntry) (t : Ingress),
      (entries.foldl (fun failed entry => failed.sendDeliveryError entry.prepared detail)
        t).records = t.records := by
    intro entries
    induction entries with
    | nil => exact fun t => rfl
    | cons entry rest ih => exact fun t => (ih _).trans (records_sendDeliveryError t _ _)
  exact fold s.pendingDeliveryQueue s.spliced

theorem records_timeout {queueId : Nat} (fired : s.timeout queueId = some s') :
    s'.records = s.records := by
  rw [Ingress.timeout] at fired
  split at fired
  · obtain ⟨_, rfl⟩ := Machine.of_guard fired
    rw [Ingress.expire]
    split
    · rfl
    · rfl
  · cases fired

/-- An attempt that is begun is new, and its id has not woken the agent. -/
theorem Ledger.begin {caller : Caller} (ledger : Ledger s.records)
    (retained : s.Retained caller.id)
    (undelivered : (s.sessionId, caller.id) ∉ s.deliveredUserMessageIds)
    (free : s.inflightUserDeliveries.lookup (dedupeKey s.sessionId caller.id) = none) :
    Ledger
      { s.records with
        inflight := s.inflightUserDeliveries.insert (dedupeKey s.sessionId caller.id) s.nextAttempt
        attempts := s.attempts.insert s.nextAttempt ⟨s.sessionId, caller, []⟩
        nextAttempt := s.nextAttempt + 1 } := by
  -- no attempt in flight has the key: it would be registered
  have unkeyed : ∀ n attempt, s.attempts.lookup n = some attempt →
      attempt.key ≠ dedupeKey s.sessionId caller.id := by
    intro n attempt running same
    rcases ledger.registered n attempt running with registered | discarded
    · rw [same] at registered
      exact absurd (free.symm.trans registered) nofun
    · exact retained (same ▸ discarded)
  have unwoken : (s.sessionId, caller.id) ∉ wokenIn s.history := fun woken =>
    (ledger.recorded _ woken).elim undelivered retained
  refine ⟨ledger.once, ledger.recorded, ?_, ?_, ?_, ?_⟩
  · intro n attempt running
    by_cases new : n = s.nextAttempt
    · subst new
      obtain rfl := Option.some_inj.mp ((AList.lookup_insert _).symm.trans running)
      exact Or.inl (AList.lookup_insert _)
    · rw [AList.lookup_insert_ne new] at running
      rw [AList.lookup_insert_ne (unkeyed n attempt running)]
      exact ledger.registered n attempt running
  · intro n m first second hn hm same
    by_cases newN : n = s.nextAttempt
    · by_cases newM : m = s.nextAttempt
      · exact newN.trans newM.symm
      · subst newN
        obtain rfl := Option.some_inj.mp ((AList.lookup_insert _).symm.trans hn)
        rw [AList.lookup_insert_ne newM] at hm
        exact absurd same.symm (unkeyed m second hm)
    · rw [AList.lookup_insert_ne newN] at hn
      by_cases newM : m = s.nextAttempt
      · subst newM
        obtain rfl := Option.some_inj.mp ((AList.lookup_insert _).symm.trans hm)
        exact absurd same (unkeyed n first hn)
      · rw [AList.lookup_insert_ne newM] at hm
        exact ledger.distinct n m first second hn hm same
  · intro n attempt running
    by_cases new : n = s.nextAttempt
    · subst new
      obtain rfl := Option.some_inj.mp ((AList.lookup_insert _).symm.trans running)
      exact unwoken
    · rw [AList.lookup_insert_ne new] at running
      exact ledger.unwoken n attempt running
  · intro n attempt running
    by_cases new : n = s.nextAttempt
    · exact new ▸ Nat.lt_succ_self _
    · rw [AList.lookup_insert_ne new] at running
      exact Nat.lt_succ_of_lt (ledger.numbered n attempt running)

/-- Sharing an attempt changes neither its number nor its key. -/
theorem Ledger.coalesce {n : Nat} {attempt : Attempt} {caller : Caller}
    (ledger : Ledger s.records) (running : s.attempts.lookup n = some attempt) :
    Ledger { s.records with attempts := s.attempts.insert n (attempt.coalesce caller) } := by
  -- every attempt is an old one, possibly with one more caller
  have old : ∀ m shared, (s.attempts.insert n (attempt.coalesce caller)).lookup m = some shared →
      ∃ first, s.attempts.lookup m = some first ∧ shared.key = first.key ∧
        (shared.sessionId, shared.id) = (first.sessionId, first.id) := by
    intro m shared found
    by_cases same : m = n
    · subst same
      obtain rfl := Option.some_inj.mp ((AList.lookup_insert _).symm.trans found)
      exact ⟨attempt, running, rfl, rfl⟩
    · rw [AList.lookup_insert_ne same] at found
      exact ⟨shared, found, rfl, rfl⟩
  refine ⟨ledger.once, ledger.recorded, ?_, ?_, ?_, ?_⟩
  · intro m shared found
    obtain ⟨first, before, key, -⟩ := old m shared found
    rw [key]
    exact ledger.registered m first before
  · intro k m left right hk hm same
    obtain ⟨first, before, key, -⟩ := old k left hk
    obtain ⟨second, before', key', -⟩ := old m right hm
    exact ledger.distinct k m first second before before' (key.symm.trans (same.trans key'))
  · intro m shared found
    obtain ⟨first, before, -, delivery⟩ := old m shared found
    rw [delivery]
    exact ledger.unwoken m first before
  · intro m shared found
    obtain ⟨first, before, -, -⟩ := old m shared found
    exact ledger.numbered m first before

theorem Ledger.attemptUserDelivery {caller : Caller} (ledger : Ledger s.records)
    (retained : s.Retained caller.id) : Ledger (s.attemptUserDelivery caller).records := by
  rw [Ingress.attemptUserDelivery]
  split
  · exact ledger
  · next undelivered =>
    split
    · next n registered =>
      split
      · next attempt running => exact ledger.coalesce running
      · exact ledger
    · next free => exact ledger.begin retained undelivered free

/-- After a release the other attempts are in flight. -/
theorem running_of_release {n m : Nat} {other : Attempt}
    (running : (s.attempts.erase n).lookup m = some other) :
    m ≠ n ∧ s.attempts.lookup m = some other := by
  by_cases same : m = n
  · rw [same, AList.lookup_erase] at running
    cases running
  · exact ⟨same, (AList.lookup_erase_ne same).symm.trans running⟩

/-- The release of an attempt. -/
theorem Ledger.release {n : Nat} {attempt : Attempt} (ledger : Ledger s.records)
    (running : s.attempts.lookup n = some attempt) (result : WakeResult) :
    Ledger (s.release n attempt result).records := by
  refine ⟨ledger.once, ledger.recorded, ?_, ?_, ?_, ?_⟩
  · intro m other found
    obtain ⟨differs, before⟩ := running_of_release found
    have key : other.key ≠ attempt.key := fun same =>
      differs (ledger.distinct m n other attempt before running same)
    exact (ledger.registered m other before).imp_left (AList.lookup_erase_ne key).trans
  · intro k m first second hk hm same
    exact ledger.distinct k m first second (running_of_release hk).2 (running_of_release hm).2
      same
  · exact fun m other found => ledger.unwoken m other (running_of_release found).2
  · exact fun m other found => ledger.numbered m other (running_of_release found).2

/-- A successful attempt is the first delivery of its id, and it is recorded. -/
theorem Ledger.settle {n : Nat} {result : WakeResult} {recorded : Bool} (ledger : Ledger s.records)
    (settled : s.settle n result recorded = some s') : Ledger s'.records := by
  obtain ⟨attempt, running, rfl⟩ := Option.map_eq_some_iff.mp settled
  have released := ledger.release running result
  dsimp only
  split
  · have confirmed : Ledger
        { (s.release n attempt result).records with
          woken := (attempt.sessionId, attempt.id) :: wokenIn s.history
          delivered := (attempt.sessionId, attempt.id) :: s.deliveredUserMessageIds } := by
      refine { released with once := ?_, recorded := ?_, unwoken := ?_ }
      · exact List.nodup_cons.mpr ⟨ledger.unwoken n attempt running, ledger.once⟩
      · intro d woken
        rcases List.mem_cons.mp woken with rfl | earlier
        · exact Or.inl List.mem_cons_self
        · exact (ledger.recorded d earlier).imp_left (List.mem_cons_of_mem _)
      · intro m other found woken
        rcases List.mem_cons.mp woken with same | earlier
        · -- another attempt for the same delivery would have the same key
          obtain ⟨differs, before⟩ := running_of_release found
          obtain ⟨session, id⟩ := Prod.mk.inj same
          have key : other.key = attempt.key := by
            rw [Attempt.key, Attempt.key, session, id]
          exact differs (ledger.distinct m n other attempt before running key)
        · exact released.unwoken m other found earlier
    rw [Ingress.confirmUserDelivery]
    dsimp only
    split
    · exact confirmed
    · exact confirmed
  · exact released

/-- A reset discards records, and remembers which. -/
theorem Ledger.resetSessionForNew (ledger : Ledger s.records) :
    Ledger s.resetSessionForNew.records := by
  refine { ledger with recorded := ?_, registered := ?_ }
  · intro d woken
    right
    rcases ledger.recorded d woken with delivered | discarded
    · apply List.mem_append_left
      apply List.mem_append_right
      exact List.mem_map.mpr ⟨d, delivered, rfl⟩
    · apply List.mem_append_left
      exact List.mem_append_left _ discarded
  · intro n attempt running
    right
    rcases ledger.registered n attempt running with registered | discarded
    · apply List.mem_append_right
      exact AList.mem_keys.mp (Map.mem_iff_lookup.mpr ⟨n, registered⟩)
    · apply List.mem_append_left
      exact List.mem_append_left _ discarded

end Ledger

/-! ## Errors are final -/

/-- The events are as they should be, and an id that was answered with an error is not alive. -/
structure Outcomes (s : Ingress) : Prop where
  late : NoneLate s.history
  displaced : NoneDisplaced s.history
  alive : ∀ id, s.Alive id → ¬ Failed id s.history

section Outcomes

variable {s t : Ingress}

/-- What is alive later was alive before. -/
theorem Outcomes.of_alive (outcomes : Outcomes s) (history : t.history = s.history)
    (alive : ∀ id, t.Alive id → s.Alive id) : Outcomes t := by
  refine ⟨?_, ?_, fun id later => ?_⟩
  · rw [history]
    exact outcomes.late
  · rw [history]
    exact outcomes.displaced
  · rw [history]
    exact outcomes.alive id (alive id later)

/-- One more delivery is alive, whose id was not answered with an error. -/
theorem Outcomes.of_added {added : String} (outcomes : Outcomes s) (history : t.history = s.history)
    (unfailed : ¬ Failed added s.history) (alive : ∀ id, t.Alive id → s.Alive id ∨ id = added) :
    Outcomes t := by
  refine ⟨?_, ?_, fun id later => ?_⟩
  · rw [history]
    exact outcomes.late
  · rw [history]
    exact outcomes.displaced
  · rw [history]
    rcases alive id later with before | rfl
    · exact outcomes.alive id before
    · exact unfailed

theorem NoneDisplaced.cons {history : List Event} {event : Event}
    (displaced : NoneDisplaced history) (other : ∀ dropped incoming, event = .evicted dropped incoming →
      incoming.retransmission = true → dropped.id = incoming.id) :
    NoneDisplaced (event :: history) := by
  intro dropped incoming mem again
  rcases List.mem_cons.mp mem with same | earlier
  · exact other dropped incoming same.symm again
  · exact displaced dropped incoming earlier again

variable {prepared : PreparedUserDelivery}

/-- An error that ends the last delivery of its id. -/
theorem Outcomes.sendDeliveryError (outcomes : Outcomes s) (last : ¬ s.Alive prepared.id)
    (detail : String) : Outcomes (s.sendDeliveryError prepared detail) := by
  refine ⟨outcomes.late, outcomes.displaced.cons nofun, fun id alive failed => ?_⟩
  rcases failed with ⟨rfl, -⟩ | earlier
  · exact last alive
  · exact outcomes.alive id alive earlier

/-- An answer that is not an error. -/
theorem Outcomes.tell {answer : Answer} (outcomes : Outcomes s) (mild : answer.isError = false)
    (sender : Option String) (id : String) : Outcomes (s.record (.answered sender id answer)) := by
  refine ⟨outcomes.late, outcomes.displaced.cons nofun, fun other alive failed => ?_⟩
  rcases failed with ⟨-, error⟩ | earlier
  · rw [mild] at error
    cases error
  · exact outcomes.alive other alive earlier

/-- A frame makes its id anew. -/
theorem Outcomes.frame (outcomes : Outcomes s) (id : String) :
    Outcomes (s.record (.frame id)) ∧ ¬ Failed id (s.record (.frame id)).history := by
  refine ⟨⟨outcomes.late, outcomes.displaced.cons nofun, fun other alive failed => ?_⟩, ?_⟩
  · exact outcomes.alive other alive failed.2
  · exact fun failed => failed.1 rfl

variable {caller : Caller} {id : String}

/-- What an attempt may add to the alive deliveries is its caller. -/
theorem alive_attemptUserDelivery (alive : (s.attemptUserDelivery caller).Alive id) :
    s.Alive id ∨ id = caller.id := by
  rw [Ingress.attemptUserDelivery] at alive
  split at alive
  · -- a delivered id is confirmed again: the caller has nothing left to queue
    rcases alive with queued | awaiting | ⟨outcome, mem, own, may⟩
    · exact Or.inl (Or.inl queued)
    · exact Or.inl (Or.inr (Or.inl awaiting))
    · rcases List.mem_append.mp mem with earlier | now
      · exact Or.inl (Or.inr (Or.inr ⟨outcome, earlier, own, may⟩))
      · obtain rfl := List.mem_singleton.mp now
        cases may
  · split at alive
    · split at alive
      -- an attempt for this id is running: the caller joins it
      · next n _ _ attempt running =>
        rcases alive with queued | ⟨entry, mem, waiting, awaits, own⟩ | going
        · exact Or.inl (Or.inl queued)
        · obtain ⟨m, shared⟩ := entry
          have found := AList.mem_lookup_iff.mpr mem
          by_cases same : m = n
          · subst same
            obtain rfl := Option.some_inj.mp ((AList.lookup_insert _).symm.trans found)
            rw [Attempt.callers, Attempt.coalesce, ← List.cons_append] at awaits
            rcases List.mem_append.mp awaits with earlier | now
            · exact Or.inl (Or.inr (Or.inl
                ⟨_, AList.mem_lookup_iff.mp running, waiting, earlier, own⟩))
            · obtain rfl := List.mem_singleton.mp now
              exact Or.inr own.symm
          · rw [AList.lookup_insert_ne same] at found
            exact Or.inl (Or.inr (Or.inl
              ⟨_, AList.mem_lookup_iff.mp found, waiting, awaits, own⟩))
        · exact Or.inl (Or.inr (Or.inr going))
      · exact Or.inl alive
    -- a new attempt, with the caller as the only one
    · rcases alive with queued | ⟨entry, mem, waiting, awaits, own⟩ | going
      · exact Or.inl (Or.inl queued)
      · obtain ⟨m, attempt⟩ := entry
        have found := AList.mem_lookup_iff.mpr mem
        by_cases new : m = s.nextAttempt
        · subst new
          obtain rfl := Option.some_inj.mp ((AList.lookup_insert _).symm.trans found)
          obtain rfl := List.mem_singleton.mp awaits
          exact Or.inr own.symm
        · rw [AList.lookup_insert_ne new] at found
          exact Or.inl (Or.inr (Or.inl
            ⟨_, AList.mem_lookup_iff.mp found, waiting, awaits, own⟩))
      · exact Or.inl (Or.inr (Or.inr going))

/-- An attempt says nothing but that a delivered id is confirmed. -/
theorem history_attemptUserDelivery (s : Ingress) (caller : Caller) :
    (s.attemptUserDelivery caller).history = s.history ∨
      (s.attemptUserDelivery caller).history =
        .answered none caller.id (.echo caller.prepared.text) :: s.history := by
  rw [Ingress.attemptUserDelivery]
  split
  · exact Or.inr rfl
  · split
    · split
      · exact Or.inl rfl
      · exact Or.inl rfl
    · exact Or.inl rfl

theorem Outcomes.attemptUserDelivery (outcomes : Outcomes s)
    (unfailed : ¬ Failed caller.id s.history) : Outcomes (s.attemptUserDelivery caller) := by
  have added : ∀ id, (s.attemptUserDelivery caller).Alive id → ¬ Failed id s.history := by
    intro id alive
    rcases alive_attemptUserDelivery alive with before | rfl
    · exact outcomes.alive id before
    · exact unfailed
  rcases history_attemptUserDelivery s caller with same | echoed
  · refine ⟨?_, ?_, ?_⟩
    · rw [same]
      exact outcomes.late
    · rw [same]
      exact outcomes.displaced
    · rw [same]
      exact added
  · refine ⟨?_, ?_, fun id alive failed => ?_⟩
    · rw [echoed]
      exact outcomes.late
    · rw [echoed]
      exact outcomes.displaced.cons nofun
    · rw [echoed] at failed
      rcases failed with ⟨-, error⟩ | earlier
      · cases error
      · exact added id alive earlier

/-! ### Settling -/

/-- An attempt that is in flight keeps its id alive. -/
theorem alive_of_running {n : Nat} {attempt : Attempt}
    (running : s.attempts.lookup n = some attempt) : s.Alive attempt.id :=
  Or.inr (Or.inl ⟨⟨n, attempt⟩, AList.mem_lookup_iff.mp running, attempt.first,
    List.mem_cons_self, rfl⟩)

variable {result : WakeResult}

/-- The callers of a released attempt were alive as long as it was in flight. -/
theorem alive_release {n : Nat} {attempt : Attempt} (running : s.attempts.lookup n = some attempt)
    (alive : (s.release n attempt result).Alive id) : s.Alive id := by
  rcases alive with queued | ⟨entry, mem, waiting, awaits, own⟩ | ⟨outcome, mem, own, may⟩
  · exact Or.inl queued
  · obtain ⟨m, other⟩ := entry
    obtain ⟨-, before⟩ := running_of_release (AList.mem_lookup_iff.mpr mem)
    exact Or.inr (Or.inl ⟨_, AList.mem_lookup_iff.mp before, waiting, awaits, own⟩)
  · rcases List.mem_append.mp mem with earlier | now
    · exact Or.inr (Or.inr ⟨outcome, earlier, own, may⟩)
    · obtain ⟨caller, awaits, rfl⟩ := List.mem_map.mp now
      exact Or.inr (Or.inl ⟨_, AList.mem_lookup_iff.mp running, caller, awaits, own⟩)

theorem Outcomes.settle {n : Nat} {recorded : Bool} (outcomes : Outcomes s)
    (settled : s.settle n result recorded = some t) : Outcomes t := by
  obtain ⟨attempt, running, rfl⟩ := Option.map_eq_some_iff.mp settled
  have released : Outcomes (s.release n attempt result) :=
    outcomes.of_alive rfl fun id => alive_release running
  dsimp only
  split
  · -- the id of the attempt is alive, so that it was not answered with an error
    have unfailed := outcomes.alive attempt.id (alive_of_running running)
    have woken : Outcomes
        { (s.release n attempt result).record (.woken attempt.sessionId attempt.id) with
          deliveredUserMessageIds :=
            (attempt.sessionId, attempt.id) :: s.deliveredUserMessageIds } :=
      ⟨⟨unfailed, released.late⟩, released.displaced.cons nofun, released.alive⟩
    rw [Ingress.confirmUserDelivery]
    split
    · exact woken.tell rfl none attempt.id
    · exact woken
  · exact released

/-! ### The queue -/

theorem alive_push {enqueuedAt : Nat} (alive : (s.push prepared enqueuedAt).Alive id) :
    s.Alive id ∨ id = prepared.id := by
  rcases alive with ⟨entry, mem, own⟩ | rest
  · rcases List.mem_append.mp mem with earlier | now
    · exact Or.inl (Or.inl ⟨entry, earlier, own⟩)
    · obtain rfl := List.mem_singleton.mp now
      exact Or.inr own.symm
  · exact Or.inl (Or.inr rest)

theorem Outcomes.push (outcomes : Outcomes s) (unfailed : ¬ Failed prepared.id s.history)
    (enqueuedAt : Nat) : Outcomes (s.push prepared enqueuedAt) :=
  outcomes.of_added rfl unfailed fun _ => alive_push

/-- With fewer entries in the queue, fewer deliveries are alive. -/
theorem Outcomes.of_queue {queue : List PendingDeliveryEntry} (outcomes : Outcomes s)
    (fewer : ∀ entry ∈ queue, ∃ old ∈ s.pendingDeliveryQueue, old.prepared = entry.prepared) :
    Outcomes { s with pendingDeliveryQueue := queue } := by
  refine outcomes.of_alive rfl ?_
  rintro id (⟨entry, mem, own⟩ | rest)
  · obtain ⟨old, before, same⟩ := fewer entry mem
    exact Or.inl ⟨old, before, same ▸ own⟩
  · exact Or.inr rest

/-- A clean eviction: the evicted delivery was the last one of its id, and it makes place for a
first transmission. -/
theorem Outcomes.enqueuePendingDelivery (outcomes : Outcomes s)
    (unfailed : ¬ Failed prepared.id s.history)
    (clean : ∀ dropped ∈ s.evictee, ¬ s.shift.Alive dropped.prepared.id ∧
      dropped.prepared.id ≠ prepared.id ∧ prepared.retransmission = false) (enqueuedAt : Nat) :
    Outcomes (s.enqueuePendingDelivery prepared enqueuedAt) := by
  rw [Ingress.enqueuePendingDelivery]
  split
  · next dropped full =>
    obtain ⟨last, other, first⟩ := clean dropped full
    have shifted : Outcomes s.shift :=
      outcomes.of_queue fun entry mem => ⟨entry, List.mem_of_mem_tail mem, rfl⟩
    have recorded : Outcomes (s.shift.record (.evicted dropped.prepared prepared)) := by
      refine ⟨shifted.late, shifted.displaced.cons ?_, shifted.alive⟩
      rintro _ _ ⟨⟩ again
      rw [first] at again
      cases again
    have evicted : Outcomes (s.evict dropped.prepared prepared) :=
      recorded.sendDeliveryError last _
    apply evicted.push
    rintro (⟨same, -⟩ | earlier)
    · exact other same
    · exact unfailed earlier
  · exact outcomes.push unfailed enqueuedAt

theorem Outcomes.queueAgain (outcomes : Outcomes s) (unfailed : ¬ Failed caller.id s.history)
    (clean : ∀ dropped ∈ s.evictee, ¬ s.shift.Alive dropped.prepared.id ∧
      dropped.prepared.id ≠ caller.id ∧ caller.prepared.retransmission = false) :
    Outcomes (s.queueAgain caller) := by
  have queued := outcomes.enqueuePendingDelivery unfailed clean (s.waitsFrom caller)
  rw [Ingress.queueAgain]
  split
  · exact queued.tell rfl _ _
  · exact queued

/-- A caller that goes on cleanly. Where it queues its delivery, it was alive before. -/
theorem Outcomes.handle (outcomes : Outcomes s) (clean : s.HandlesCleanly caller result)
    (unfailed : s.mayQueue (caller, result) = true → ¬ Failed caller.id s.history) :
    Outcomes (s.handle caller result) := by
  cases result with
  | ok => exact outcomes
  | recoverable detail =>
    rw [Ingress.handle]
    split
    · next expired => exact outcomes.sendDeliveryError (clean.1 expired) _
    · next waits =>
      have waits := Bool.eq_false_iff.mpr waits
      apply outcomes.queueAgain (unfailed _) (clean.2 waits)
      simp only [Ingress.mayQueue, waits, Bool.not_false]
  | rejected detail => exact outcomes.sendDeliveryError clean _
  | thrown detail =>
    rw [Ingress.handle]
    split
    · exact outcomes
    · next answers => exact outcomes.sendDeliveryError (clean (Bool.eq_false_iff.mpr answers)) _

theorem Outcomes.resume {j : Nat} (outcomes : Outcomes s) (clean : Clean s (.resume j))
    (resumed : s.resume j = some t) : Outcomes t := by
  obtain ⟨⟨caller, result⟩, found, rfl⟩ := Option.map_eq_some_iff.mp resumed
  have mem := List.mem_of_getElem? found
  have taken : Outcomes (s.takeResumed j) := by
    refine outcomes.of_alive rfl ?_
    rintro id (queued | awaiting | ⟨outcome, left, own, may⟩)
    · exact Or.inl queued
    · exact Or.inr (Or.inl awaiting)
    · exact Or.inr (Or.inr ⟨outcome, List.mem_of_mem_eraseIdx left, own, may⟩)
  apply taken.handle (clean _ found)
  intro may
  exact outcomes.alive caller.id (Or.inr (Or.inr ⟨_, mem, rfl, may⟩))

theorem Outcomes.timeout {queueId : Nat} (outcomes : Outcomes s)
    (clean : Clean s (.timeout queueId)) (fired : s.timeout queueId = some t) : Outcomes t := by
  rw [Ingress.timeout] at fired
  split at fired
  · next entry found =>
    obtain ⟨_, rfl⟩ := Machine.of_guard fired
    have own : entry.queueId = queueId := by
      have matched := List.find?_some found
      exact of_decide_eq_true matched
    rw [Ingress.expire]
    split
    · apply outcomes.of_queue
      intro renewed mem
      obtain ⟨old, before, rfl⟩ := List.mem_map.mp mem
      refine ⟨old, before, ?_⟩
      split
      · rfl
      · rfl
    · next fails =>
      rw [own]
      have spliced : Outcomes (s.splice queueId) :=
        outcomes.of_queue fun entry mem => ⟨entry, (List.mem_filter.mp mem).1, rfl⟩
      exact spliced.sendDeliveryError (clean entry found (Bool.eq_false_iff.mpr fails)) _
  · cases fired

theorem Outcomes.spliced (outcomes : Outcomes s) : Outcomes s.spliced :=
  outcomes.of_queue nofun

/-- All entries fail, and none of their ids is alive otherwise. -/
theorem Outcomes.failPendingDeliveryQueue (outcomes : Outcomes s) (clean : Clean s .quit)
    (detail : String) : Outcomes (s.failPendingDeliveryQueue detail) := by
  have fold : ∀ (entries : List PendingDeliveryEntry) (u : Ingress), Outcomes u →
      (∀ entry ∈ entries, ¬ u.Alive entry.prepared.id) →
      Outcomes (entries.foldl (fun failed entry => failed.sendDeliveryError entry.prepared detail)
        u) := by
    intro entries
    induction entries with
    | nil => exact fun u outcomes _ => outcomes
    | cons entry rest ih =>
      intro u outcomes last
      apply ih
      · exact outcomes.sendDeliveryError (last entry List.mem_cons_self) detail
      · exact fun other mem => last other (List.mem_cons_of_mem _ mem)
  exact fold s.pendingDeliveryQueue s.spliced outcomes.spliced clean

/-- A drain turns every entry into a caller of the same id. -/
theorem Outcomes.drainPendingDeliveryQueue (outcomes : Outcomes s) :
    Outcomes s.drainPendingDeliveryQueue := by
  have fold : ∀ (entries : List PendingDeliveryEntry) (u : Ingress), Outcomes u →
      (∀ entry ∈ entries, ¬ Failed entry.prepared.id u.history) →
      Outcomes (entries.foldl (fun drained entry =>
        drained.attemptUserDelivery ⟨entry.prepared, .drained entry.enqueuedAt⟩) u) := by
    intro entries
    induction entries with
    | nil => exact fun u outcomes _ => outcomes
    | cons entry rest ih =>
      intro u outcomes unfailed
      apply ih
      · exact outcomes.attemptUserDelivery (unfailed entry List.mem_cons_self)
      · intro other mem failed
        have before := unfailed other (List.mem_cons_of_mem _ mem)
        rcases history_attemptUserDelivery u ⟨entry.prepared, .drained entry.enqueuedAt⟩ with
          same | echoed
        · rw [same] at failed
          exact before failed
        · rw [echoed] at failed
          rcases failed with ⟨-, error⟩ | earlier
          · cases error
          · exact before earlier
  apply fold s.pendingDeliveryQueue s.spliced outcomes.spliced
  intro entry mem
  exact outcomes.alive entry.prepared.id (Or.inl ⟨entry, mem, rfl⟩)

/-! ### Frames -/

theorem Outcomes.deliverUserMessage (outcomes : Outcomes s)
    (unfailed : ¬ Failed prepared.id s.history) : Outcomes (s.deliverUserMessage prepared) := by
  rw [Ingress.deliverUserMessage]
  split
  · exact outcomes.tell rfl _ _
  · exact outcomes.attemptUserDelivery unfailed

theorem Outcomes.userMessage {sender text : String} (outcomes : Outcomes s)
    (clean : Clean s (.userMessage sender id text)) : Outcomes (s.userMessage sender id text) := by
  obtain ⟨arrived, unfailed⟩ := outcomes.frame id
  rw [Ingress.userMessage]
  split
  · next refused =>
    obtain ⟨disposed, unfenced⟩ := Bool.and_eq_true_iff.mp refused
    have last := (clean (Option.isNone_iff_eq_none.mp unfenced)).1 disposed
    refine ⟨arrived.late, arrived.displaced.cons nofun, fun other alive failed => ?_⟩
    rcases failed with ⟨rfl, -⟩ | earlier
    · exact last alive
    · exact arrived.alive other alive earlier
  · exact arrived.deliverUserMessage unfailed

/-- As time goes on, fewer callers may queue their delivery. -/
theorem Outcomes.tick (outcomes : Outcomes s) (ms : Nat) :
    Outcomes { s with now := s.now + ms } := by
  refine outcomes.of_alive rfl ?_
  rintro id (queued | awaiting | ⟨⟨caller, result⟩, mem, own, may⟩)
  · exact Or.inl queued
  · exact Or.inr (Or.inl awaiting)
  · refine Or.inr (Or.inr ⟨(caller, result), mem, own, ?_⟩)
    cases result with
    | ok => cases may
    | recoverable detail =>
      simp only [Ingress.mayQueue, Ingress.expired] at may ⊢
      cases origin : caller.origin with
      | frame => rfl
      | drained enqueuedAt =>
        simp only [origin, Bool.not_eq_true', decide_eq_false_iff_not] at may ⊢
        omega
    | rejected detail => cases may
    | thrown detail => cases may

end Outcomes

/-! ## Runs -/

section Runs

variable {s s' : Ingress}

theorem Ledger.deliverUserMessage {prepared : PreparedUserDelivery} (ledger : Ledger s.records)
    (retained : s.fenceReason = none → s.Retained prepared.id) :
    Ledger (s.deliverUserMessage prepared).records := by
  rw [Ingress.deliverUserMessage]
  split
  · exact ledger
  · next unfenced => exact ledger.attemptUserDelivery (retained unfenced)

theorem Ledger.userMessage {sender id text : String} (ledger : Ledger s.records)
    (clean : Clean s (.userMessage sender id text)) :
    Ledger (s.userMessage sender id text).records := by
  have arrived : Ledger (s.record (.frame id)).records := ledger
  rw [Ingress.userMessage]
  split
  · exact ledger
  · next served =>
    apply arrived.deliverUserMessage
    intro unfenced
    apply (clean unfenced).2
    rw [show s.fenceReason = none from unfenced] at served
    simpa using served

/-- An attempt changes neither the session nor what a reset has discarded. -/
theorem retained_attemptUserDelivery {caller : Caller} {id : String} :
    (s.attemptUserDelivery caller).Retained id ↔ s.Retained id := by
  have same : (s.attemptUserDelivery caller).sessionId = s.sessionId ∧
      (s.attemptUserDelivery caller).discarded = s.discarded := by
    unfold Ingress.attemptUserDelivery
    split
    · exact ⟨rfl, rfl⟩
    · split
      · split
        · exact ⟨rfl, rfl⟩
        · exact ⟨rfl, rfl⟩
      · exact ⟨rfl, rfl⟩
  rw [Ingress.Retained, Ingress.Retained, same.1, same.2]

/-- A drain begins an attempt for every entry. -/
theorem Ledger.drainPendingDeliveryQueue (ledger : Ledger s.records) (clean : Clean s .drain) :
    Ledger s.drainPendingDeliveryQueue.records := by
  have fold : ∀ (entries : List PendingDeliveryEntry) (u : Ingress), Ledger u.records →
      (∀ entry ∈ entries, u.Retained entry.prepared.id) →
      Ledger (entries.foldl (fun drained entry =>
        drained.attemptUserDelivery ⟨entry.prepared, .drained entry.enqueuedAt⟩) u).records := by
    intro entries
    induction entries with
    | nil => exact fun u ledger _ => ledger
    | cons entry rest ih =>
      intro u ledger retained
      apply ih
      · exact ledger.attemptUserDelivery (retained entry List.mem_cons_self)
      · intro other mem
        exact retained_attemptUserDelivery.mpr (retained other (List.mem_cons_of_mem _ mem))
  exact fold s.pendingDeliveryQueue s.spliced ledger clean

theorem Ledger.step {label : Label} (ledger : Ledger s.records) (clean : Clean s label)
    (taken : step s label = some s') : Ledger s'.records := by
  -- what is recorded changes only where messages are taken in, settled or given up
  cases label with
  | tick ms =>
    cases taken
    exact ledger
  | userMessage sender id text =>
    cases taken
    exact ledger.userMessage clean
  | queuedMessage id text =>
    cases taken
    have arrived : Ledger (s.record (.frame id)).records := ledger
    exact arrived.deliverUserMessage clean
  | settle n result recorded => exact ledger.settle taken
  | resume j =>
    obtain ⟨outcome, -, rfl⟩ := Option.map_eq_some_iff.mp taken
    rw [records_handle]
    exact ledger
  | timeout queueId =>
    rw [records_timeout taken]
    exact ledger
  | drain =>
    cases taken
    exact ledger.drainPendingDeliveryQueue clean
  | quit =>
    cases taken
    rw [records_failPendingDeliveryQueue]
    exact ledger
  | resetSessionForNew =>
    cases taken
    exact ledger.resetSessionForNew
  | sessionChanges sessionId =>
    cases taken
    exact ledger
  | disposedChanges disposed =>
    cases taken
    exact ledger
  | fenceChanges reason =>
    cases taken
    exact ledger
  | replacingChanges replacing =>
    cases taken
    exact ledger

theorem Outcomes.step {label : Label} (outcomes : Outcomes s) (clean : Clean s label)
    (taken : step s label = some s') : Outcomes s' := by
  cases label with
  | tick ms =>
    cases taken
    exact outcomes.tick ms
  | userMessage sender id text =>
    cases taken
    exact outcomes.userMessage clean
  | queuedMessage id text =>
    cases taken
    obtain ⟨arrived, unfailed⟩ := outcomes.frame id
    exact arrived.deliverUserMessage unfailed
  | settle n result recorded => exact outcomes.settle taken
  | resume j => exact outcomes.resume clean taken
  | timeout queueId => exact outcomes.timeout clean taken
  | drain =>
    cases taken
    exact outcomes.drainPendingDeliveryQueue
  | quit =>
    cases taken
    exact outcomes.failPendingDeliveryQueue clean _
  | resetSessionForNew =>
    cases taken
    exact outcomes.of_alive rfl fun _ => id
  | sessionChanges sessionId =>
    cases taken
    exact outcomes.of_alive rfl fun _ => id
  | disposedChanges disposed =>
    cases taken
    exact outcomes.of_alive rfl fun _ => id
  | fenceChanges reason =>
    cases taken
    exact outcomes.of_alive rfl fun _ => id
  | replacingChanges replacing =>
    cases taken
    exact outcomes.of_alive rfl fun _ => id

theorem ledger_new (sessionId : String) : Ledger (Ingress.new sessionId).records :=
  ⟨List.nodup_nil, nofun, nofun, nofun, nofun, nofun⟩

theorem outcomes_new (sessionId : String) : Outcomes (.new sessionId) := by
  refine ⟨trivial, nofun, fun id alive failed => ?_⟩
  cases failed

/-- In a clean run each delivery wakes the agent at most once, an id that was answered with an
error is not delivered without another frame, and no retransmission displaces another id. -/
theorem one_outcome_per_delivery (reached : machine.ReachableUnder Clean s) :
    OneOutcome s.history := by
  have sound : Ledger s.records ∧ Outcomes s := by
    refine reached.invariant (I := fun t => Ledger t.records ∧ Outcomes t) ?_ ?_
    · rintro t ⟨sessionId, rfl⟩
      exact ⟨ledger_new sessionId, outcomes_new sessionId⟩
    · exact fun t label t' sound clean taken =>
        ⟨sound.1.step clean taken, sound.2.step clean taken⟩
  exact ⟨sound.1.once, sound.2.late, sound.2.displaced⟩

end Runs

/-- A message that waits for the agent session, and is then delivered. -/
theorem one_outcome_per_delivery_queued :
    ∃ s, machine.ReachableUnder Clean s ∧ wokenIn s.history = [("first", "m1")] ∧
      OneOutcome s.history := by
  let schedule : List Label :=
    [.userMessage "phone" "m1" "hello", .settle 0 (.recoverable none) false, .resume 0, .drain,
      .settle 1 .ok true, .resume 0]
  have ran : (machine.exec (.new "first") schedule).any (fun s =>
      decide (wokenIn s.history = [("first", "m1")])) = true := by decide +kernel
  have meets : machine.Meets Clean (.new "first") schedule := by decide +kernel
  obtain ⟨s, executed, woken⟩ := (Option.any_eq_true _ _).mp ran
  have reached : machine.ReachableUnder Clean s :=
    ⟨.new "first", ⟨"first", rfl⟩, Machine.runsTo_of_exec meets executed⟩
  exact ⟨s, reached, of_decide_eq_true woken, one_outcome_per_delivery reached⟩

/-- A message that is drained into a new session is delivered again after the reset. A message
that was sent again while it waited is delivered after its first entry has failed. And sending it
again evicts another message. -/
theorem exists_second_outcome :
    (∃ s, machine.Reachable s ∧ ¬ (wokenIn s.history).Nodup) ∧
      (∃ s, machine.Reachable s ∧ ¬ NoneLate s.history) ∧
      ∃ s, machine.Reachable s ∧ ¬ NoneDisplaced s.history := by
  refine ⟨?_, ?_, ?_⟩
  · let schedule : List Label :=
      [.userMessage "phone" "m1" "hello", .settle 0 (.recoverable none) false, .resume 0,
        .sessionChanges "second", .drain, .settle 1 .ok true, .resume 0, .resetSessionForNew,
        .userMessage "phone" "m1" "hello", .settle 2 .ok true]
    have ran : (machine.exec (.new "first") schedule).any (fun s =>
        decide (¬ (wokenIn s.history).Nodup)) = true := by decide +kernel
    obtain ⟨s, executed, twice⟩ := (Option.any_eq_true _ _).mp ran
    exact ⟨s, Machine.reachable_of_exec ⟨"first", rfl⟩ executed, of_decide_eq_true twice⟩
  · let schedule : List Label :=
      [.userMessage "phone" "m1" "hello", .settle 0 (.recoverable none) false, .resume 0,
        .tick 3000, .userMessage "phone" "m1" "hello", .settle 1 (.recoverable none) false,
        .resume 0, .tick 2000, .timeout 1, .drain, .settle 2 .ok true]
    have ran : (machine.exec (.new "first") schedule).any (fun s =>
        decide (¬ NoneLate s.history)) = true := by decide +kernel
    obtain ⟨s, executed, late⟩ := (Option.any_eq_true _ _).mp ran
    exact ⟨s, Machine.reachable_of_exec ⟨"first", rfl⟩ executed, of_decide_eq_true late⟩
  · let schedule : List Label :=
      [.userMessage "phone" "m1" "hello", .settle 0 (.recoverable none) false, .resume 0,
        .userMessage "phone" "m2" "again", .settle 1 (.recoverable none) false, .resume 0,
        .userMessage "phone" "m2" "again", .settle 2 (.recoverable none) false, .resume 0]
    have ran : (machine.exec (.new "first") schedule).any (fun s =>
        decide (.evicted ⟨some "phone", "m1", "hello", false⟩ ⟨some "phone", "m2", "again", true⟩ ∈
          s.history)) = true := by decide +kernel
    obtain ⟨s, executed, evicted⟩ := (Option.any_eq_true _ _).mp ran
    refine ⟨s, Machine.reachable_of_exec ⟨"first", rfl⟩ executed, fun displaced => ?_⟩
    have same := displaced _ _ (of_decide_eq_true evicted) rfl
    exact absurd same (by decide)

end OutpostPi.Session.UserIngress
