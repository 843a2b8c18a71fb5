import OutpostPi.Session.UserFactLedger

/-!
# Conservation of user facts

The facts of a content that are recorded, with its reservations whose fact is not, are as many as
the messages of the SDK of that content, with all its reservations. There are no more reservations
of a content than deliveries that wait for their `message_end`, so that none is left when nothing
is in flight: `user_facts_conserved`.
-/

set_option autoImplicit false

namespace OutpostPi.Session.UserFacts

open OutpostPi.Lib

/-! ## Counts -/

/-- The `message_end` of the attempt is still to come. -/
def Attempt.waits (attempt : Attempt) (content : Content) : Bool :=
  decide (attempt.msg.signature = content) && decide (attempt.stage ≠ .rejected) && !attempt.ended

namespace Projection

def reservedCount (p : Projection) (content : Content) : Nat :=
  p.deliveredUserEventIds.countP fun entry => entry.key = content

/-- The reservations of a content whose fact is not recorded. -/
def unrecordedCount (p : Projection) (content : Content) : Nat :=
  p.deliveredUserEventIds.countP fun entry =>
    decide (entry.key = content) && !p.isRecorded entry.eventId

def waitingCount (p : Projection) (content : Content) : Nat :=
  p.attempts.countP fun attempt => attempt.waits content

end Projection

/-- Every fact has its message, and every message its fact or its reservation. -/
def Balanced (p : Projection) : Prop :=
  ∀ content, p.confirmations content + p.unrecordedCount content =
    p.ends.count content + p.reservedCount content

section Counts

variable {p : Projection} {event : TranscriptEvent} {entry : DeliveredUserEventReservation}
  {rest : List DeliveredUserEventReservation} {content : Content}

theorem reservedCount_of_perm (perm : p.deliveredUserEventIds.Perm (entry :: rest))
    (c : Content) : p.reservedCount c =
      rest.countP (fun entry => entry.key = c) + if entry.key = c then 1 else 0 := by
  rw [Projection.reservedCount, perm.countP_eq, List.countP_cons]
  simp

theorem unrecordedCount_of_perm (perm : p.deliveredUserEventIds.Perm (entry :: rest))
    (c : Content) : p.unrecordedCount c =
      rest.countP (fun entry => decide (entry.key = c) && !p.isRecorded entry.eventId) +
        if entry.key = c ∧ p.isRecorded entry.eventId = false then 1 else 0 := by
  rw [Projection.unrecordedCount, perm.countP_eq, List.countP_cons]
  simp

theorem confirmations_record (new : p.isRecorded event.eventId = false)
    (confirms : confirmedContent event = some content) (c : Content) :
    (p.record event).confirmations c = p.confirmations c + if content = c then 1 else 0 := by
  rw [record_of_new new, Projection.confirmations, Projection.confirmations, List.countP_append,
    List.countP_singleton, confirms]
  simp

/-- Facts that no reservation stands for leave the reservations as they are. -/
theorem countP_isRecorded_record (here : event.sessionId = p.sessionId)
    (apart : ∀ entry ∈ rest, entry.eventId ≠ event.eventId) (c : Content) :
    rest.countP (fun entry => decide (entry.key = c) && !(p.record event).isRecorded entry.eventId) =
      rest.countP (fun entry => decide (entry.key = c) && !p.isRecorded entry.eventId) := by
  apply List.countP_congr
  intro entry mem
  have same : (p.record event).isRecorded entry.eventId = p.isRecorded entry.eventId := by
    rw [Bool.eq_iff_iff, isRecorded_record here]
    have ne := apart entry mem
    constructor
    · rintro (known | same)
      · exact known
      · exact absurd same.symm ne
    · exact Or.inl
  rw [same]

theorem count_note (ts : Int) (c : Content) :
    (p.note content ts).ends.count c = p.ends.count c + if content = c then 1 else 0 := by
  simp [Projection.note, List.count_append, List.count_singleton]

namespace Balanced

/-- A message takes a reservation, whose fact is recorded now if it was not before. -/
theorem take (x : Balanced p) (perm : p.deliveredUserEventIds.Perm (entry :: rest))
    (key : entry.key = content) (apart : ∀ other ∈ rest, other.eventId ≠ entry.eventId)
    (here : event.sessionId = p.sessionId) (eventId : event.eventId = entry.eventId)
    (confirms : confirmedContent event = some content) (ts : Int) :
    Balanced (((p.note content ts).setReservations rest).record event) := by
  intro c
  have balance := x c
  rw [reservedCount_of_perm perm, unrecordedCount_of_perm perm, key] at balance
  have noted : (p.note content ts).ends.count c = _ := count_note ts c
  have reserved : Projection.reservedCount
      (((p.note content ts).setReservations rest).record event) c =
        rest.countP (fun entry => entry.key = c) := by
    rw [Projection.reservedCount, record_deliveredUserEventIds]
    rfl
  have unrecorded : Projection.unrecordedCount
      (((p.note content ts).setReservations rest).record event) c =
        rest.countP (fun entry => decide (entry.key = c) && !p.isRecorded entry.eventId) := by
    rw [Projection.unrecordedCount, record_deliveredUserEventIds]
    exact countP_isRecorded_record (p := (p.note content ts).setReservations rest) here
      (fun other mem => eventId ▸ apart other mem) c
  rw [reserved, unrecorded, record_ends]
  change _ = (p.note content ts).ends.count c + _
  cases known : p.isRecorded entry.eventId with
  | true =>
    rw [record_of_recorded (eventId ▸ known)]
    change p.confirmations c + _ = _
    simp only [known, Bool.true_eq_false, and_false, if_false] at balance
    omega
  | false =>
    rw [confirmations_record (eventId ▸ known) confirms]
    change p.confirmations c + _ + _ = _
    simp only [known, and_true] at balance
    omega

/-- A message that finds no reservation has a fact of its own. -/
theorem sync (x : Balanced p)
    (new : p.isRecorded event.eventId = false)
    (apart : ∀ entry ∈ p.deliveredUserEventIds, entry.eventId ≠ event.eventId)
    (here : event.sessionId = p.sessionId) (confirms : confirmedContent event = some content)
    (ts : Int) : Balanced ((p.note content ts).record event) := by
  intro c
  have balance := x c
  have noted : (p.note content ts).ends.count c = _ := count_note ts c
  have reserved : ((p.note content ts).record event).reservedCount c = p.reservedCount c := by
    rw [Projection.reservedCount, record_deliveredUserEventIds]
    rfl
  have unrecorded : ((p.note content ts).record event).unrecordedCount c =
      p.unrecordedCount c := by
    rw [Projection.unrecordedCount, record_deliveredUserEventIds]
    exact countP_isRecorded_record (p := p.note content ts) here apart c
  have confirmed := confirmations_record (p := p.note content ts) new confirms c
  rw [reserved, unrecorded, record_ends, confirmed]
  change p.confirmations c + _ + _ = _
  omega

/-- A delivery records the fact of its reservation. -/
theorem confirm (x : Balanced p) (perm : p.deliveredUserEventIds.Perm (entry :: rest))
    (apart : ∀ other ∈ rest, other.eventId ≠ entry.eventId)
    (new : p.isRecorded entry.eventId = false)
    (here : event.sessionId = p.sessionId) (eventId : event.eventId = entry.eventId)
    (confirms : confirmedContent event = some entry.key) : Balanced (p.record event) := by
  intro c
  have balance := x c
  have permAfter : (p.record event).deliveredUserEventIds.Perm (entry :: rest) := by
    rwa [record_deliveredUserEventIds]
  have known : (p.record event).isRecorded entry.eventId = true :=
    (isRecorded_record here).mpr (Or.inr eventId)
  have others := countP_isRecorded_record here (fun other mem => eventId ▸ apart other mem) c
  have confirmed := confirmations_record (eventId ▸ new) confirms c
  rw [reservedCount_of_perm perm, unrecordedCount_of_perm perm] at balance
  rw [reservedCount_of_perm permAfter, unrecordedCount_of_perm permAfter, others, confirmed,
    record_ends]
  simp only [new, and_true] at balance
  simp only [known, Bool.true_eq_false, and_false, if_false]
  omega

/-- A reservation is given back, and its fact is not recorded. -/
theorem cancel (x : Balanced p) (perm : p.deliveredUserEventIds.Perm (entry :: rest))
    (new : p.isRecorded entry.eventId = false) :
    Balanced (p.setReservations rest) := by
  intro c
  have balance := x c
  rw [reservedCount_of_perm perm, unrecordedCount_of_perm perm] at balance
  simp only [new, and_true] at balance
  change p.confirmations c + rest.countP (fun entry => decide (entry.key = c) &&
    !p.isRecorded entry.eventId) = p.ends.count c + rest.countP (fun entry => entry.key = c)
  omega

end Balanced

end Counts

/-! ## The invariant -/

/-- What holds in a run whose steps are attributed. -/
structure Accounted (p : Projection) : Prop where
  ledger : Ledger p
  claimed : Claimed p
  staged : Staged p
  balanced : Balanced p
  bounded : ∀ content, p.reservedCount content ≤ p.waitingCount content

section Steps

variable {p : Projection} {n : Nat} {attempt new : Attempt} {content : Content} {ts : Int}

theorem waitingCount_setAttempt (new : Attempt) (found : p.attempts[n]? = some attempt)
    (content : Content) :
    (p.setAttempt n new).waitingCount content + (if attempt.waits content then 1 else 0) =
      p.waitingCount content + if new.waits content then 1 else 0 :=
  countP_set_add found

namespace Accounted

/-- A new attempt waits for its message, and its reservation for its fact. -/
theorem attemptOnce (x : Accounted p) {msg : UserMessage} {shouldSteer : Bool} {producedAt : Int}
    (fresh : ∀ attempt ∈ p.attempts, attempt.stage ≠ .rejected → attempt.msg.id ≠ msg.id)
    (unnamed : ∀ ts ∈ p.timestamps, msg.id ≠ syncId ts) :
    Accounted (p.attemptUserDeliveryOnce msg shouldSteer producedAt) where
  ledger := x.ledger.attemptOnce fresh unnamed
  claimed := by
    intro m a found alive
    obtain found | ⟨rfl, rfl⟩ := getElem?_append_singleton found
    · rcases x.claimed m a found alive with ⟨entry, mem, number⟩ | recorded
      · exact Or.inl ⟨entry, List.mem_append_left _ mem, number⟩
      · exact Or.inr recorded
    · exact Or.inl ⟨_, List.mem_append_right _ List.mem_cons_self, rfl⟩
  staged := by
    constructor <;> intro attempt mem <;> rcases List.mem_append.mp mem with mem | mem
    · exact x.staged.unended attempt mem
    · obtain rfl := List.mem_singleton.mp mem
      exact fun _ => rfl
    · exact x.staged.canonical attempt mem
    · obtain rfl := List.mem_singleton.mp mem
      rintro (stage | stage) <;> cases stage
    · exact x.staged.delivered attempt mem
    · obtain rfl := List.mem_singleton.mp mem
      exact nofun
  balanced := by
    intro c
    -- the id is new, so its event is not recorded
    have unrecorded : p.isRecorded (p.eventIdOf msg.id) = false := by
      rw [Bool.eq_false_iff]
      intro recorded
      rcases x.ledger.source recorded with ⟨ts, mem, same⟩ | ⟨other, mem, alive, same⟩
      · exact unnamed ts mem same
      · exact fresh other mem alive same
    have perm : (p.attemptUserDeliveryOnce msg shouldSteer producedAt).deliveredUserEventIds.Perm
        (_ :: p.deliveredUserEventIds) := List.perm_append_singleton _ _
    have balance := x.balanced c
    rw [reservedCount_of_perm perm, unrecordedCount_of_perm perm]
    change p.confirmations c + (p.unrecordedCount c + if msg.signature = c ∧
      p.isRecorded (p.eventIdOf msg.id) = false then 1 else 0) =
        p.ends.count c + (p.reservedCount c + if msg.signature = c then 1 else 0)
    simp only [unrecorded, and_true]
    omega
  bounded := by
    intro c
    have perm : (p.attemptUserDeliveryOnce msg shouldSteer producedAt).deliveredUserEventIds.Perm
        (_ :: p.deliveredUserEventIds) := List.perm_append_singleton _ _
    -- one reservation more, and one attempt more that waits
    have waiting : (p.attemptUserDeliveryOnce msg shouldSteer producedAt).waitingCount c =
        p.waitingCount c + if msg.signature = c then 1 else 0 := by
      rw [Projection.waitingCount, Projection.attemptUserDeliveryOnce, List.countP_append,
        List.countP_singleton]
      simp [Attempt.waits, Projection.waitingCount]
    have bound := x.bounded c
    rw [reservedCount_of_perm perm, waiting]
    change p.reservedCount c + (if msg.signature = c then 1 else 0) ≤ _
    omega

theorem deliver (x : Accounted p) (msg : UserMessage) (shouldSteer : Bool) (producedAt : Int)
    (unnamed : msg.id ∉ p.timestamps.map syncId) :
    Accounted (p.deliver msg shouldSteer producedAt) := by
  rw [Projection.deliver]
  split
  · exact x
  · next undelivered =>
    split
    · exact x
    · next idle =>
      have fresh : ∀ attempt ∈ p.attempts, attempt.stage ≠ .rejected → attempt.msg.id ≠ msg.id := by
        intro attempt mem alive same
        have landed : attempt.inFlight = false := by
          rw [Bool.eq_false_iff]
          intro flying
          exact idle (List.any_eq_true.mpr ⟨attempt, mem, by simp [flying, same]⟩)
        cases stage : attempt.stage with
        | undecided => simp [Attempt.inFlight, stage] at landed
        | accepted => simp [Attempt.inFlight, stage] at landed
        | resolved => exact undelivered (same ▸ x.staged.delivered attempt mem stage)
        | rejected => exact alive stage
      exact x.attemptOnce fresh fun ts mem same => unnamed (same ▸ List.mem_map_of_mem mem)

/-- The SDK accepts a message. -/
theorem accept (x : Accounted p) (found : p.attempts[n]? = some attempt)
    (undecided : attempt.stage = .undecided) (canonical : attempt.msg.IsCanonical) :
    Accounted (p.setAttempt n { attempt with stage := .accepted }) where
  ledger := by
    refine x.ledger.setAttempt found rfl ?_ ?_ ?_
    · rw [undecided]
      exact nofun
    · exact nofun
    · rw [undecided]
      exact nofun
  claimed := by
    refine x.claimed.setAttempt found rfl ?_
    rw [undecided]
    exact nofun
  staged := x.staged.update rfl (fun _ mem => mem) nofun (fun _ => canonical) nofun
  balanced := x.balanced
  bounded := by
    intro c
    have waiting := waitingCount_setAttempt { attempt with stage := .accepted } found c
    have same : Attempt.waits { attempt with stage := .accepted } c = attempt.waits c := by
      simp [Attempt.waits, undecided]
    rw [same] at waiting
    have bound := x.bounded c
    change p.reservedCount c ≤ _
    omega

/-- The SDK rejects a message, whose reservation is given back. -/
theorem reject (x : Accounted p) (found : p.attempts[n]? = some attempt)
    (undecided : attempt.stage = .undecided)
    (held : ∃ entry ∈ p.deliveredUserEventIds, entry.attempt = n) :
    Accounted ((p.cancelReservation n).setAttempt n { attempt with stage := .rejected }) := by
  obtain ⟨entry, first⟩ : ∃ entry, p.deliveredUserEventIds.find?
      (fun entry => decide (entry.attempt = n)) = some entry := by
    obtain ⟨entry, mem, number⟩ := held
    exact Option.isSome_iff_exists.mp (List.find?_isSome.mpr ⟨entry, mem, by simp [number]⟩)
  have perm := perm_cons_eraseP first
  obtain rfl : entry.attempt = n := by simpa using List.find?_some first
  obtain ⟨attempt', found', stands⟩ := x.ledger.reserved entry (List.mem_of_find?_eq_some first)
  obtain rfl : attempt = attempt' := by
    rw [found] at found'
    exact Option.some_inj.mp found'
  -- a recorded event would have settled the attempt
  have unrecorded : p.isRecorded entry.eventId = false := by
    rw [Bool.eq_false_iff]
    intro recorded
    have stage := x.ledger.pending entry (List.mem_of_find?_eq_some first) recorded attempt found
    rw [undecided] at stage
    cases stage
  -- no two reservations are of one attempt
  have others : ∀ other ∈ (p.cancelReservation entry.attempt).deliveredUserEventIds,
      other.attempt ≠ entry.attempt := by
    intro other mem same
    have numbers := (perm.map DeliveredUserEventReservation.attempt).nodup_iff.mp x.ledger.numbered
    rw [List.map_cons, List.nodup_cons] at numbers
    have there := List.mem_map_of_mem (f := DeliveredUserEventReservation.attempt) mem
    rw [same] at there
    exact numbers.1 there
  have kept : ∀ other ∈ p.deliveredUserEventIds, other.attempt ≠ entry.attempt →
      other ∈ (p.cancelReservation entry.attempt).deliveredUserEventIds := by
    intro other mem apart
    rcases List.mem_cons.mp (perm.mem_iff.mp mem) with rfl | mem
    · exact absurd rfl apart
    · exact mem
  refine ⟨?_, ?_, ?_, x.balanced.cancel perm unrecorded, ?_⟩
  · have erased := x.ledger.erase (List.eraseP_sublist (l := p.deliveredUserEventIds)
      (p := fun other => other.attempt = entry.attempt))
    refine erased.setAttempt found rfl ?_ ?_ ?_
    · rw [undecided]
      exact nofun
    · intro _
      exact ⟨others, stands.eventId ▸ unrecorded⟩
    · rw [undecided]
      exact nofun
  · intro m a after alive
    obtain ⟨rfl, rfl⟩ | ⟨apart, there⟩ := getElem?_of_set after
    · exact absurd rfl alive
    · rcases x.claimed m a there alive with ⟨other, mem, rfl⟩ | recorded
      · exact Or.inl ⟨other, kept other mem apart, rfl⟩
      · exact Or.inr recorded
  · exact x.staged.update rfl (fun _ mem => mem) nofun (by rintro (stage | stage) <;> cases stage)
      nofun
  · intro c
    -- the attempt does not wait any more, and its reservation is gone
    have waiting := waitingCount_setAttempt (p := p.cancelReservation entry.attempt)
      { attempt with stage := .rejected } found c
    have bound := x.bounded c
    rw [reservedCount_of_perm perm, stands.key] at bound
    have ended := x.staged.unended attempt (List.mem_of_getElem? found) undecided
    have before : attempt.waits c = decide (attempt.msg.signature = c) := by
      simp [Attempt.waits, undecided, ended]
    have after : Attempt.waits { attempt with stage := .rejected } c = false := by
      simp [Attempt.waits]
    rw [before, after] at waiting
    change _ = p.waitingCount c + _ at waiting
    change (p.deliveredUserEventIds.eraseP _).countP _ ≤ _
    simp only [decide_eq_true_eq, Bool.false_eq_true, if_false] at waiting
    omega

/-- The promise of an accepted message resolves. -/
theorem resolve (x : Accounted p) (found : p.attempts[n]? = some attempt)
    (accepted : attempt.stage = .accepted) :
    Accounted ((p.setAttempt n { attempt with stage := .resolved }).confirmUserDelivery
      attempt) := by
  have alive : attempt.stage ≠ .rejected := by
    rw [accepted]
    exact nofun
  have canonical := x.staged.canonical attempt (List.mem_of_getElem? found) (Or.inl accepted)
  have resolved : Ledger (p.setAttempt n { attempt with stage := .resolved }) :=
    x.ledger.setAttempt found rfl alive nofun (fun _ => rfl)
  have self := getElem?_setAttempt_self (a := { attempt with stage := .resolved }) found
  have claimed : Claimed (p.setAttempt n { attempt with stage := .resolved }) :=
    x.claimed.setAttempt found rfl alive
  have source : Source (p.setAttempt n { attempt with stage := .resolved }) attempt.msg.id :=
    Or.inr ⟨_, List.mem_of_getElem? self, nofun, rfl⟩
  refine ⟨?_, claimed.record rfl, ?_, ?_, ?_⟩
  · apply Ledger.recordDelivered
    apply resolved.record source
    intro entry mem same a there
    obtain ⟨a', there', stands⟩ := resolved.reserved entry mem
    obtain rfl : a = a' := by
      rw [there] at there'
      exact Option.some_inj.mp there'
    have ids : a.msg.id = attempt.msg.id := by
      apply eventIdOf_injective p
      exact stands.eventId.symm.trans same
    have number := resolved.apart _ _ a _ there self stands.alive nofun ids
    rw [number, self] at there
    cases there
    rfl
  · have replaced : ((p.setAttempt n { attempt with stage := .resolved }).confirmUserDelivery
        attempt).attempts = p.attempts.set n { attempt with stage := .resolved } := record_attempts
    refine x.staged.update replaced ?_ nofun ?_ ?_
    · intro id mem
      apply List.mem_append_left
      rw [record_deliveredUserMessageIds]
      exact mem
    · exact fun _ => canonical
    · exact fun _ => List.mem_append_right _ List.mem_cons_self
  · change Balanced (Projection.record (p.setAttempt n { attempt with stage := .resolved }) _)
    cases known : p.isRecorded (p.eventIdOf attempt.msg.id) with
    | true =>
      rw [record_of_recorded known]
      exact x.balanced
    | false =>
      -- a fact that is not recorded is still reserved
      obtain ⟨entry, mem, rfl⟩ : ∃ entry ∈ p.deliveredUserEventIds, entry.attempt = n := by
        rcases x.claimed n attempt found alive with held | recorded
        · exact held
        · rw [known] at recorded
          cases recorded
      obtain ⟨a, there, stands⟩ := x.ledger.reserved entry mem
      obtain rfl : attempt = a := by
        rw [found] at there
        exact Option.some_inj.mp there
      have perm := List.perm_cons_erase mem
      have balanced : Balanced (p.setAttempt entry.attempt { attempt with stage := .resolved }) :=
        x.balanced
      refine balanced.confirm perm (x.ledger.eventId_ne perm) (stands.eventId ▸ known) rfl
        stands.eventId.symm ?_
      rw [confirmedContent_confirmedEvent, stands.key]
      exact congrArg some (normalize_signature canonical)
  · intro c
    have waiting := waitingCount_setAttempt { attempt with stage := .resolved } found c
    have same : Attempt.waits { attempt with stage := .resolved } c = attempt.waits c := by
      simp [Attempt.waits, accepted]
    rw [same] at waiting
    have bound := x.bounded c
    have reserved : ((p.setAttempt n { attempt with stage := .resolved }).confirmUserDelivery
        attempt).reservedCount c = p.reservedCount c := by
      rw [Projection.reservedCount]
      change (Projection.deliveredUserEventIds (Projection.record _ _)).countP _ = _
      rw [record_deliveredUserEventIds]
      rfl
    have waits : ((p.setAttempt n { attempt with stage := .resolved }).confirmUserDelivery
        attempt).waitingCount c =
          (p.setAttempt n { attempt with stage := .resolved }).waitingCount c := by
      rw [Projection.waitingCount]
      change (Projection.attempts (Projection.record _ _)).countP _ = _
      rw [record_attempts]
      rfl
    rw [reserved, waits]
    omega

end Accounted

/-- A `message_end`, of a delivery that was waiting for it or of the terminal. -/
theorem accounted_recordSdkMessage (ledger : Ledger p) (claimed : Claimed p) (staged : Staged p)
    (balanced : Balanced p)
    (bounded : ∀ c, p.reservedCount c ≤ p.waitingCount c + if content = c then 1 else 0)
    (fresh : ts ∉ p.timestamps) (unnamed : ∀ attempt ∈ p.attempts, attempt.msg.id ≠ syncId ts)
    (canonical : normalize content = content) :
    Accounted ((p.note content ts).recordSdkMessage content ts) := by
  have noted : Ledger (p.note content ts) := ledger.note unnamed
  rw [Projection.recordSdkMessage, Projection.consumeDeliveredUserEvent]
  cases first : (p.note content ts).deliveredUserEventIds.find? fun entry => entry.key = content with
  -- a reservation is taken: the message gets the ids of the attempt that stands behind it
  | some entry =>
    have perm : p.deliveredUserEventIds.Perm (entry ::
        p.deliveredUserEventIds.eraseP fun entry => entry.key = content) := perm_cons_eraseP first
    have mem : entry ∈ p.deliveredUserEventIds := List.mem_of_find?_eq_some first
    have key : entry.key = content := by simpa using List.find?_some first
    obtain ⟨attempt, found, stands⟩ := ledger.reserved entry mem
    have apart := ledger.eventId_ne perm
    have erased := noted.erase (List.eraseP_sublist (l := p.deliveredUserEventIds)
      (p := fun entry => entry.key = content))
    have source : Source (p.note content ts) attempt.msg.id :=
      Or.inr ⟨attempt, List.mem_of_getElem? found, stands.alive, rfl⟩
    dsimp only
    rw [stands.clientMessageId, stands.eventId]
    refine ⟨?_, ?_, staged.congr record_attempts record_deliveredUserMessageIds, ?_, ?_⟩
    · refine erased.record source ?_
      intro other there same
      exact absurd (same.trans stands.eventId.symm) (apart other there)
    · intro m a there alive
      rw [record_attempts] at there
      have claim := claimed m a there alive
      rw [record_deliveredUserEventIds, record_eventIdOf, isRecorded_record rfl]
      rcases claim with ⟨other, held, rfl⟩ | recorded
      · rcases List.mem_cons.mp (perm.mem_iff.mp held) with rfl | held
        · obtain rfl : attempt = a := Option.some_inj.mp (found.symm.trans there)
          exact Or.inr (Or.inr rfl)
        · exact Or.inl ⟨other, held, rfl⟩
      · exact Or.inr (Or.inl recorded)
    -- one fact more, and one reservation less
    · refine balanced.take perm key apart rfl stands.eventId.symm ?_ ts
      rw [confirmedContent_confirmedEvent]
      exact congrArg some canonical
    · intro c
      have bound := bounded c
      rw [reservedCount_of_perm perm, key] at bound
      rw [Projection.reservedCount, Projection.waitingCount, record_deliveredUserEventIds,
        record_attempts]
      change (p.deliveredUserEventIds.eraseP _).countP _ ≤ p.waitingCount c
      omega
  -- no reservation is left for this content: the message gets ids of its own
  | none =>
    rw [eraseP_of_find?_none first]
    change Accounted ((p.note content ts).record _)
    have new := ledger.sync_new fresh unnamed
    have apart : ∀ entry ∈ p.deliveredUserEventIds, entry.eventId ≠ p.eventIdOf (syncId ts) := by
      intro entry mem same
      obtain ⟨attempt, found, stands⟩ := ledger.reserved entry mem
      have ids := eventIdOf_injective p (stands.eventId.symm.trans same)
      exact unnamed attempt (List.mem_of_getElem? found) ids
    have kept : Claimed (p.note content ts) := claimed
    refine ⟨?_, kept.record rfl,
      staged.congr record_attempts record_deliveredUserMessageIds, ?_, ?_⟩
    · refine Ledger.record noted (Or.inl ⟨ts, List.mem_append_right _ List.mem_cons_self, rfl⟩) ?_
      intro entry mem same
      exact absurd same (apart entry mem)
    · refine balanced.sync new apart rfl ?_ ts
      rw [confirmedContent_confirmedEvent]
      exact congrArg some canonical
    · intro c
      have bound := bounded c
      rw [Projection.reservedCount, Projection.waitingCount, record_deliveredUserEventIds,
        record_attempts]
      change p.reservedCount c ≤ p.waitingCount c
      by_cases same : content = c
      · -- no reservation of this content is left
        subst same
        have zero : p.reservedCount content = 0 := by
          rw [Projection.reservedCount, List.countP_eq_zero]
          exact List.find?_eq_none.mp first
        omega
      · rw [if_neg same] at bound
        exact bound

end Steps

/-! ## Runs -/

theorem accounted_new (sessionId : String) : Accounted (Projection.new sessionId) where
  ledger :=
    { numbered := List.nodup_nil
      reserved := fun _ mem => absurd mem List.not_mem_nil
      apart := fun _ _ _ _ found => absurd found (by simp [Projection.new])
      pending := fun _ mem => absurd mem List.not_mem_nil
      events := fun _ mem => absurd mem List.not_mem_nil
      once := List.nodup_nil
      named := fun _ mem => absurd mem List.not_mem_nil }
  claimed := fun _ _ found => absurd found (by simp [Projection.new])
  staged :=
    { unended := fun _ mem => absurd mem List.not_mem_nil
      canonical := fun _ mem => absurd mem List.not_mem_nil
      delivered := fun _ mem => absurd mem List.not_mem_nil }
  balanced _ := rfl
  bounded _ := Nat.le_refl 0

theorem accounted_messageEnd {p q : Projection} {content : Content} {ts : Int} (x : Accounted p)
    (unnamed : ∀ attempt ∈ p.attempts, attempt.msg.id ≠ syncId ts)
    (canonical : normalize content = content) (taken : p.messageEnd content ts = some q) :
    Accounted q := by
  rw [Projection.messageEnd] at taken
  split at taken
  · cases taken
  · next fresh =>
    cases taken
    refine accounted_recordSdkMessage x.ledger x.claimed x.staged x.balanced ?_ fresh unnamed
      canonical
    intro c
    exact Nat.le_add_right_of_le (x.bounded c)

theorem accounted_attemptEnd {p q : Projection} {n : Nat} {ts : Int} (x : Accounted p)
    (unnamed : ∀ attempt ∈ p.attempts, attempt.msg.id ≠ syncId ts)
    (taken : p.attemptEnd n ts = some q) : Accounted q := by
  rw [Projection.attemptEnd] at taken
  split at taken
  · next attempt found =>
    obtain ⟨enabled, taken⟩ := Option.ite_none_right_eq_some.mp taken
    have alive : attempt.stage ≠ .rejected := by
      rcases enabled.1 with stage | stage <;> rw [stage] <;> exact nofun
    have mem := List.mem_of_getElem? found
    have canonical := x.staged.canonical attempt mem enabled.1
    rw [Projection.messageEnd] at taken
    split at taken
    · cases taken
    · next fresh =>
      cases taken
      refine accounted_recordSdkMessage ?_ ?_ ?_ x.balanced ?_ fresh ?_
        (normalize_contentOf attempt.msg.content)
      · exact x.ledger.setAttempt found rfl alive (fun gone => absurd gone alive) id
      · exact x.claimed.setAttempt found rfl alive
      · refine x.staged.update rfl (fun _ mem => mem) ?_ (fun _ => canonical) ?_
        · intro undecided
          rcases enabled.1 with stage | stage <;> exact absurd (stage.symm.trans undecided) nofun
        · exact x.staged.delivered attempt mem
      · -- the attempt does not wait any longer
        intro c
        have bound := x.bounded c
        have waiting := waitingCount_setAttempt { attempt with ended := true } found c
        have before : attempt.waits c = decide (attempt.msg.signature = c) := by
          simp [Attempt.waits, alive, enabled.2]
        have after : Attempt.waits { attempt with ended := true } c = false := by
          simp [Attempt.waits]
        rw [before, after] at waiting
        rw [contentOf_content canonical]
        change p.reservedCount c ≤ _
        simp only [decide_eq_true_eq, Bool.false_eq_true, if_false] at waiting
        omega
      · intro other there
        rcases List.mem_or_eq_of_mem_set there with there | rfl
        · exact unnamed other there
        · exact unnamed attempt mem
  · cases taken

theorem accounted_step {p q : Projection} {label : Label} (x : Accounted p)
    (attributed : Attributed p label) (taken : step p label = some q) : Accounted q := by
  cases label with
  | deliver msg shouldSteer producedAt =>
    cases taken
    exact x.deliver msg shouldSteer producedAt attributed
  | accept n =>
    rw [step, Projection.accept] at taken
    split at taken
    · next attempt found =>
      obtain ⟨undecided, rfl⟩ := Machine.of_guard taken
      exact x.accept found undecided (attributed attempt found)
    · cases taken
  | reject n =>
    rw [step, Projection.reject] at taken
    split at taken
    · next attempt found =>
      obtain ⟨undecided, rfl⟩ := Machine.of_guard taken
      exact x.reject found undecided attributed
    · cases taken
  | resolve n =>
    rw [step, Projection.resolve] at taken
    split at taken
    · next attempt found =>
      obtain ⟨accepted, rfl⟩ := Machine.of_guard taken
      exact x.resolve found accepted
    · cases taken
  | attemptEnd n ts => exact accounted_attemptEnd x attributed taken
  | localEnd content ts => exact accounted_messageEnd x attributed (normalize_contentOf content) taken

theorem accounted_of_reachable {p : Projection} (reached : machine.ReachableUnder Attributed p) :
    Accounted p := by
  refine reached.invariant ?_ ?_
  · rintro _ ⟨sessionId, rfl⟩
    exact accounted_new sessionId
  · intro p label q x attributed taken
    exact accounted_step x attributed taken

/-! ## Quiescence -/

section Quiescence

variable {p : Projection}

/-- No reservation is left when nothing is in flight. -/
theorem Accounted.reservedCount_eq_zero (x : Accounted p) (quiescent : p.Quiescent)
    (content : Content) : p.reservedCount content = 0 := by
  have idle : p.waitingCount content = 0 := by
    apply List.countP_eq_zero.mpr
    intro attempt mem
    rcases quiescent attempt mem with stage | ⟨-, ended⟩
    · simp [Attempt.waits, stage]
    · simp [Attempt.waits, ended]
  exact Nat.le_zero.mp (idle ▸ x.bounded content)

theorem Accounted.counted (x : Accounted p) (quiescent : p.Quiescent) (content : Content) :
    p.confirmations content = p.ends.count content := by
  have balance := x.balanced content
  have reserved := x.reservedCount_eq_zero quiescent content
  have unrecorded : p.unrecordedCount content ≤ p.reservedCount content := by
    apply List.countP_mono_left
    intro entry _ both
    exact (Bool.and_eq_true_iff.mp both).1
  omega

theorem Ledger.confirmationsOf_le_one (x : Ledger p) (clientMessageId : String) :
    p.confirmationsOf clientMessageId ≤ 1 := by
  apply countP_le_one x.once
  intro a memA b memB confirmsA confirmsB
  obtain ⟨idA, factA, identityA, -⟩ := x.events a memA
  obtain ⟨idB, factB, identityB, -⟩ := x.events b memB
  have sameA : idA = clientMessageId := by simpa [factA] using confirmsA
  have sameB : idB = clientMessageId := by simpa [factB] using confirmsB
  rw [identityA, identityB, sameA, sameB]

/-- A confirmed id of an attempt belongs to one that is not rejected. -/
theorem Ledger.attempt_of_confirmed (x : Ledger p) {clientMessageId : String}
    (known : ∃ attempt ∈ p.attempts, attempt.msg.id = clientMessageId)
    (confirmed : p.confirmationsOf clientMessageId ≠ 0) :
    ∃ attempt ∈ p.attempts, attempt.msg.id = clientMessageId ∧ attempt.stage ≠ .rejected := by
  obtain ⟨event, mem, confirms⟩ := List.countP_pos_iff.mp (Nat.pos_of_ne_zero confirmed)
  obtain ⟨id, fact, -, source⟩ := x.events event mem
  obtain rfl : id = clientMessageId := by simpa [fact] using confirms
  rcases source with ⟨ts, noted, same⟩ | ⟨attempt, there, alive, same⟩
  · obtain ⟨attempt, there, named⟩ := known
    exact absurd (named.trans same) (x.named attempt there ts noted)
  · exact ⟨attempt, there, same, alive⟩

end Quiescence

/-- When no delivery is in flight and the `message_end` of every accepted message is processed, the
facts are those of the SDK, and an app message is confirmed at most once and only if its own
delivery was accepted. -/
theorem user_facts_conserved {p : Projection} (reached : machine.ReachableUnder Attributed p)
    (quiescent : p.Quiescent) : p.Conserved := by
  have x := accounted_of_reachable reached
  refine ⟨x.counted quiescent, x.ledger.confirmationsOf_le_one, ?_⟩
  intro clientMessageId known confirmed
  obtain ⟨attempt, mem, same, alive⟩ := x.ledger.attempt_of_confirmed known confirmed
  rcases quiescent attempt mem with rejected | ⟨resolved, -⟩
  · exact absurd rejected alive
  · exact ⟨attempt, mem, same, resolved⟩

/-- A message of the terminal takes the reservation of an app message of the same text, whose own
message then has a fact of its own. -/
theorem user_facts_conserved_equal_texts :
    ∃ p, machine.ReachableUnder Attributed p ∧ p.ends.length = 2 ∧
      p.confirmationsOf "m1" = 1 ∧ p.Conserved := by
  let schedule : List Label :=
    [.deliver ⟨"m1", "continue", none⟩ false 1, .localEnd (.text "continue") 2, .accept 0,
      .attemptEnd 0 3, .resolve 0]
  have ran : (machine.exec (.new "first") schedule).any (fun p =>
      decide (p.Quiescent ∧ p.ends.length = 2 ∧ p.confirmationsOf "m1" = 1)) = true := by
    decide +kernel
  have meets : machine.Meets Attributed (.new "first") schedule := by decide +kernel
  obtain ⟨p, executed, facts⟩ := (Option.any_eq_true _ _).mp ran
  obtain ⟨quiescent, two, one⟩ := of_decide_eq_true facts
  have reached : machine.ReachableUnder Attributed p :=
    ⟨.new "first", ⟨"first", rfl⟩, Machine.runsTo_of_exec meets executed⟩
  exact ⟨p, reached, two, one, user_facts_conserved reached quiescent⟩

/-- An app message is rejected after a message of the terminal has taken its reservation: it stays
confirmed. And when it is sent again and accepted, two messages have one fact. -/
theorem exists_rejected_confirmed :
    (∃ p, machine.Reachable p ∧ p.Quiescent ∧ p.confirmationsOf "m1" = 1 ∧
      (∀ attempt ∈ p.attempts, attempt.stage = .rejected) ∧ ¬ p.Conserved) ∧
    ∃ p, machine.Reachable p ∧ p.Quiescent ∧ p.ends.count ("continue", []) = 2 ∧
      p.confirmations ("continue", []) = 1 ∧ ¬ p.Conserved := by
  constructor
  · let schedule : List Label :=
      [.deliver ⟨"m1", "continue", none⟩ false 1, .localEnd (.text "continue") 2, .reject 0]
    have ran : (machine.exec (.new "first") schedule).any (fun p =>
        decide (p.Quiescent ∧ p.confirmationsOf "m1" = 1 ∧
          (∀ attempt ∈ p.attempts, attempt.stage = .rejected) ∧
          ∃ attempt ∈ p.attempts, attempt.msg.id = "m1")) = true := by
      decide +kernel
    obtain ⟨p, executed, facts⟩ := (Option.any_eq_true _ _).mp ran
    obtain ⟨quiescent, one, rejected, known⟩ := of_decide_eq_true facts
    refine ⟨p, Machine.reachable_of_exec ⟨"first", rfl⟩ executed, quiescent, one, rejected, ?_⟩
    intro conserved
    have confirmed : p.confirmationsOf "m1" ≠ 0 := by
      rw [one]
      exact Nat.one_ne_zero
    obtain ⟨attempt, mem, -, resolved⟩ := conserved.accepted "m1" known confirmed
    rw [rejected attempt mem] at resolved
    cases resolved
  · let schedule : List Label :=
      [.deliver ⟨"m1", "continue", none⟩ false 1, .localEnd (.text "continue") 2, .reject 0,
        .deliver ⟨"m1", "continue", none⟩ false 3, .accept 1, .attemptEnd 1 4, .resolve 1]
    have ran : (machine.exec (.new "first") schedule).any (fun p =>
        decide (p.Quiescent ∧ p.ends.count ("continue", []) = 2 ∧
          p.confirmations ("continue", []) = 1)) = true := by
      decide +kernel
    obtain ⟨p, executed, facts⟩ := (Option.any_eq_true _ _).mp ran
    obtain ⟨quiescent, two, one⟩ := of_decide_eq_true facts
    refine ⟨p, Machine.reachable_of_exec ⟨"first", rfl⟩ executed, quiescent, two, one, ?_⟩
    intro conserved
    have counted := conserved.counted ("continue", [])
    rw [two, one] at counted
    cases counted

end OutpostPi.Session.UserFacts
