import OutpostPi.Lib.Counting
import OutpostPi.Session.TranscriptReconcile
import OutpostPi.Session.UserFacts

/-!
# Conservation of user facts

`Ledger` says what a reservation stands for: it belongs to an attempt that is not rejected, and its
fact is recorded only when the attempt has resolved; an attempt without a reservation has its fact
recorded. `Balance` counts by content: the facts that are recorded, with the reservations whose
fact is not, are the messages of the SDK with all reservations.

Both are kept in the runs of `Attributed`, and when nothing is in flight no reservation is left, so
that the facts are the messages of the SDK: `user_facts_conserved`.
-/

set_option autoImplicit false

namespace OutpostPi.Session.UserFacts

open OutpostPi.Lib

/-! ## Ids and contents -/

section Contents

variable {p : Projection}

/-- Different messages have different event ids. -/
theorem eventIdOf_injective (p : Projection) : Function.Injective p.eventIdOf := by
  intro a b same
  have chars := congrArg String.toList same
  apply String.toList_inj.mp
  simpa [Projection.eventIdOf, deterministicTranscriptEventId, String.toList_append] using chars

/-- An event id is recorded exactly when the log holds its event of this session. -/
theorem isRecorded_iff {eventId : String} :
    p.isRecorded eventId = true ↔
      ∃ event ∈ p.transcriptLog, event.identity = (p.sessionId, eventId) := by
  simp [Projection.isRecorded]

/-- The SDK's content of a message reads as its text. -/
theorem stringifyContent_content (msg : UserMessage) : stringifyContent msg.content = msg.text := by
  rw [UserMessage.content]
  split
  · rfl
  · next image images _ =>
    have blank : ∀ images : List WireImage,
        String.join ((images.map imageBlock ++ [textBlock msg.text]).map stringifyBlock) =
          msg.text := by
      intro images
      induction images with
      | nil => simp [stringifyBlock, textBlock, String.join]
      | cons image images ih =>
        simp only [List.map_cons, List.cons_append, String.join_cons, ih]
        simp [stringifyBlock, imageBlock]
    exact blank (image :: images)

/-- The SDK's content of a message has its images, with their keys in the SDK's order. -/
theorem imagesFromContent_content (msg : UserMessage) :
    imagesFromContent msg.content =
      (msg.images.getD []).map fun image => { image with mimeFirst := false } := by
  rw [UserMessage.content]
  split
  · next none => rw [none]; rfl
  · next image images some =>
    rw [some, imagesFromContent, List.filterMap_append]
    have blocks : ∀ images : List WireImage, (images.map imageBlock).filterMap imageOfBlock =
        images.map fun image => { image with mimeFirst := false } := by
      intro images
      induction images with
      | nil => rfl
      | cons image images ih => simp [imageBlock, imageOfBlock, ih]
    rw [blocks]
    simp [imageOfBlock, textBlock]

/-- Images in the order of the transcript are left alone by the SDK. -/
theorem map_canonical {images : List WireImage} (canonical : ∀ image ∈ images,
    image.mimeFirst = false) :
    (images.map fun image => { image with mimeFirst := false }) = images := by
  conv_rhs => rw [← List.map_id images]
  apply List.map_congr_left
  intro image mem
  have order := canonical image mem
  cases image
  simp_all

/-- Canonical images are what comes back from the SDK. -/
theorem contentOf_content {msg : UserMessage} (canonical : msg.IsCanonical) :
    contentOf msg.content = msg.signature := by
  rw [contentOf, stringifyContent_content, imagesFromContent_content, UserMessage.signature,
    transcriptUserContentSignature, map_canonical canonical]

/-- The signature of a canonical message is normal. -/
theorem normalize_signature {msg : UserMessage} (canonical : msg.IsCanonical) :
    normalize msg.signature = msg.signature := by
  rw [UserMessage.signature, transcriptUserContentSignature, normalize, map_canonical canonical]

/-- Images of the SDK are canonical. -/
theorem normalize_contentOf (content : SdkContent) :
    normalize (contentOf content) = contentOf content := by
  have order : ∀ image ∈ imagesFromContent content, image.mimeFirst = false := by
    intro image mem
    cases content with
    | blocks blocks =>
      obtain ⟨block, -, found⟩ := List.mem_filterMap.mp mem
      cases block with
      | none => cases found
      | some block =>
        simp only [imageOfBlock] at found
        split at found
        · split at found
          · cases found
            rfl
          · cases found
        · cases found
    | text text => cases mem
    | record content text json => cases mem
    | scalar text => cases mem
    | missing => cases mem
  rw [contentOf, normalize, map_canonical order]

/-- A confirmed event carries its text and images. -/
theorem confirmedContent_confirmedEvent (p : Projection) (eventId : String) (ts : Int)
    (id text : String) (images : List WireImage) (steer : Option StreamingBehavior) :
    confirmedContent (p.confirmedEvent eventId ts id text images steer) =
      some (normalize (text, images)) := by
  rw [Projection.confirmedEvent, confirmedContent]
  cases images <;> rfl

end Contents

/-! ## Recording -/

section Recording

variable {p : Projection} {event : TranscriptEvent}

/-- Recording stays in the session. -/
@[simp] theorem record_sessionId : (p.record event).sessionId = p.sessionId := by
  rw [Projection.record]; split <;> rfl

/-- Recording leaves the delivered event ids. -/
@[simp] theorem record_deliveredUserEventIds :
    (p.record event).deliveredUserEventIds = p.deliveredUserEventIds := by
  rw [Projection.record]; split <;> rfl

/-- Recording leaves the delivered message ids. -/
@[simp] theorem record_deliveredUserMessageIds :
    (p.record event).deliveredUserMessageIds = p.deliveredUserMessageIds := by
  rw [Projection.record]; split <;> rfl

/-- Recording leaves the attempts. -/
@[simp] theorem record_attempts : (p.record event).attempts = p.attempts := by
  rw [Projection.record]; split <;> rfl

/-- Recording leaves the ends. -/
@[simp] theorem record_ends : (p.record event).ends = p.ends := by
  rw [Projection.record]; split <;> rfl

/-- Recording leaves the timestamps. -/
@[simp] theorem record_timestamps : (p.record event).timestamps = p.timestamps := by
  rw [Projection.record]; split <;> rfl

/-- Recording leaves how event ids are made. -/
@[simp] theorem record_eventIdOf : (p.record event).eventIdOf = p.eventIdOf := by
  funext id
  rw [Projection.eventIdOf, Projection.eventIdOf, record_sessionId]

/-- An event whose id is recorded is not recorded again. -/
theorem record_of_recorded (known : p.isRecorded event.eventId = true) : p.record event = p := by
  rw [Projection.record, if_pos known]

/-- A new event comes last in the log. -/
theorem record_of_new (new : p.isRecorded event.eventId = false) :
    p.record event = { p with transcriptLog := p.transcriptLog ++ [event] } := by
  rw [Projection.record, if_neg (by simp [new])]

/-- What the log holds afterwards it held before, or it is the new event. -/
theorem mem_record {other : TranscriptEvent} (mem : other ∈ (p.record event).transcriptLog) :
    other ∈ p.transcriptLog ∨ other = event := by
  rw [Projection.record] at mem
  split at mem
  · exact Or.inl mem
  · simpa using mem

/-- Recording an event of this session records its id, and no other. -/
theorem isRecorded_record (here : event.sessionId = p.sessionId) {eventId : String} :
    (p.record event).isRecorded eventId = true ↔
      p.isRecorded eventId = true ∨ event.eventId = eventId := by
  cases known : p.isRecorded event.eventId with
  | true =>
    rw [record_of_recorded known]
    constructor
    · exact Or.inl
    · rintro (recorded | rfl)
      · exact recorded
      · exact known
  | false =>
    rw [record_of_new known]
    simp [Projection.isRecorded, TranscriptEvent.identity, here]

/-- The log stays free of repetitions. -/
theorem nodup_record (here : event.sessionId = p.sessionId)
    (distinct : (p.transcriptLog.map TranscriptEvent.identity).Nodup) :
    ((p.record event).transcriptLog.map TranscriptEvent.identity).Nodup := by
  cases known : p.isRecorded event.eventId with
  | true => rwa [record_of_recorded known]
  | false =>
    rw [record_of_new known]
    have absent : ∀ other ∈ p.transcriptLog, other.identity ≠ event.identity := by
      intro other mem same
      have recorded : p.isRecorded event.eventId = true :=
        isRecorded_iff.mpr ⟨other, mem, by rw [same, TranscriptEvent.identity, here]⟩
      rw [known] at recorded
      cases recorded
    rw [List.map_append, List.nodup_append]
    refine ⟨distinct, List.nodup_singleton _, ?_⟩
    intro a inLog b inNew
    obtain ⟨other, mem, rfl⟩ := List.mem_map.mp inLog
    obtain rfl : b = event.identity := by simpa using inNew
    exact absent other mem

end Recording

section Attempts

variable {p : Projection} {m n : Nat} {old a : Attempt}

/-- An attempt that was set is found. -/
theorem getElem?_setAttempt_self (found : p.attempts[n]? = some old) :
    (p.setAttempt n a).attempts[n]? = some a := by
  rw [Projection.setAttempt, List.getElem?_set_self', found]
  rfl

/-- The other attempts are as they were. -/
theorem getElem?_setAttempt_ne (apart : m ≠ n) :
    (p.setAttempt n a).attempts[m]? = p.attempts[m]? := by
  rw [Projection.setAttempt, List.getElem?_set_ne (Ne.symm apart)]

/-- An attempt in the longer list was there before or is the new one. -/
theorem getElem?_append_singleton {attempts : List Attempt}
    (found : (attempts ++ [a])[m]? = some old) :
    attempts[m]? = some old ∨ m = attempts.length ∧ old = a := by
  rw [List.getElem?_append] at found
  split at found
  · exact Or.inl found
  · next above =>
    right
    have inside := List.getElem?_eq_some_iff.mp found
    obtain ⟨below, same⟩ := inside
    have here : m - attempts.length = 0 := by simpa using below
    refine ⟨by omega, ?_⟩
    simpa [here] using same.symm

end Attempts

/-! ## The ledger -/

/-- A reservation stands for an attempt that is not rejected. -/
structure ReservationOf (p : Projection) (entry : DeliveredUserEventReservation)
    (attempt : Attempt) : Prop where
  alive : attempt.stage ≠ .rejected
  key : entry.key = attempt.msg.signature
  clientMessageId : entry.clientMessageId = attempt.msg.id
  eventId : entry.eventId = p.eventIdOf attempt.msg.id

/-- Where the id of a recorded message may come from. -/
def Source (p : Projection) (id : String) : Prop :=
  (∃ ts ∈ p.timestamps, id = syncId ts) ∨
    ∃ attempt ∈ p.attempts, attempt.stage ≠ .rejected ∧ attempt.msg.id = id

/-- What the reservations and the recorded facts say about the attempts. -/
structure Ledger (p : Projection) : Prop where
  numbered : (p.deliveredUserEventIds.map DeliveredUserEventReservation.attempt).Nodup
  reserved : ∀ entry ∈ p.deliveredUserEventIds, ∃ attempt,
    p.attempts[entry.attempt]? = some attempt ∧ ReservationOf p entry attempt
  apart : ∀ (m n : Nat) (a b : Attempt), p.attempts[m]? = some a → p.attempts[n]? = some b →
    a.stage ≠ .rejected → b.stage ≠ .rejected → a.msg.id = b.msg.id → m = n
  pending : ∀ entry ∈ p.deliveredUserEventIds, p.isRecorded entry.eventId = true →
    ∀ attempt, p.attempts[entry.attempt]? = some attempt → attempt.stage = .resolved
  events : ∀ event ∈ p.transcriptLog, ∃ id, confirmedId event = some id ∧
    event.identity = (p.sessionId, p.eventIdOf id) ∧ Source p id
  once : (p.transcriptLog.map TranscriptEvent.identity).Nodup
  named : ∀ attempt ∈ p.attempts, ∀ ts ∈ p.timestamps, attempt.msg.id ≠ syncId ts

/-- An attempt that is not rejected has its reservation, or its fact is recorded. -/
def Claimed (p : Projection) : Prop :=
  ∀ (n : Nat) (attempt : Attempt), p.attempts[n]? = some attempt → attempt.stage ≠ .rejected →
    (∃ entry ∈ p.deliveredUserEventIds, entry.attempt = n) ∨
      p.isRecorded (p.eventIdOf attempt.msg.id) = true

/-- What the stage of an attempt says about it. -/
structure Staged (p : Projection) : Prop where
  unended : ∀ attempt ∈ p.attempts, attempt.stage = .undecided → attempt.ended = false
  canonical : ∀ attempt ∈ p.attempts, attempt.stage = .accepted ∨ attempt.stage = .resolved →
    attempt.msg.IsCanonical
  delivered : ∀ attempt ∈ p.attempts, attempt.stage = .resolved →
    attempt.msg.id ∈ p.deliveredUserMessageIds

section Ledger

variable {p : Projection} {n : Nat} {old new attempt : Attempt} {id : String}

namespace Ledger

/-- The id of a recorded fact is named by its source. -/
theorem source (x : Ledger p) (recorded : p.isRecorded (p.eventIdOf id) = true) :
    Source p id := by
  obtain ⟨event, mem, identity⟩ := isRecorded_iff.mp recorded
  obtain ⟨other, -, identity', source⟩ := x.events event mem
  have same : p.eventIdOf id = p.eventIdOf other := by
    rw [identity] at identity'
    exact (Prod.mk.inj identity').2
  rwa [eventIdOf_injective p same]

/-- Two reservations do not stand for one fact. -/
theorem eventId_ne (x : Ledger p) {taken : DeliveredUserEventReservation}
    {rest : List DeliveredUserEventReservation}
    (perm : p.deliveredUserEventIds.Perm (taken :: rest)) :
    ∀ entry ∈ rest, entry.eventId ≠ taken.eventId := by
  intro entry mem same
  have numbers := (perm.map DeliveredUserEventReservation.attempt).nodup_iff.mp x.numbered
  obtain ⟨a, foundA, forA⟩ := x.reserved taken (perm.mem_iff.mpr List.mem_cons_self)
  obtain ⟨b, foundB, forB⟩ := x.reserved entry (perm.mem_iff.mpr (List.mem_cons_of_mem _ mem))
  have ids : b.msg.id = a.msg.id := by
    apply eventIdOf_injective p
    rw [← forA.eventId, ← forB.eventId, same]
  have number := x.apart _ _ b a foundB foundA forB.alive forA.alive ids
  rw [List.map_cons, List.nodup_cons] at numbers
  exact numbers.1 (number ▸ List.mem_map_of_mem mem)

/-- Reservations may be taken away. -/
theorem erase (x : Ledger p) {rest : List DeliveredUserEventReservation}
    (sub : rest.Sublist p.deliveredUserEventIds) :
    Ledger (p.setReservations rest) :=
  { x with
    numbered := (sub.map _).nodup x.numbered
    reserved := by
      intro entry mem
      obtain ⟨attempt, found, stands⟩ := x.reserved entry (sub.subset mem)
      exact ⟨attempt, found, stands.alive, stands.key, stands.clientMessageId, stands.eventId⟩
    pending entry mem := x.pending entry (sub.subset mem) }

/-- A fact may be recorded when the attempts that hold reservations for it have resolved. -/
theorem record (x : Ledger p) {ts : Int} {text : String} {images : List WireImage}
    {steer : Option StreamingBehavior} (source : Source p id)
    (settled : ∀ entry ∈ p.deliveredUserEventIds, entry.eventId = p.eventIdOf id →
      ∀ attempt, p.attempts[entry.attempt]? = some attempt → attempt.stage = .resolved) :
    Ledger (p.record (p.confirmedEvent (p.eventIdOf id) ts id text images steer)) where
  numbered := by simpa using x.numbered
  reserved := by
    intro entry mem
    obtain ⟨attempt, found, stands⟩ := x.reserved entry (by simpa using mem)
    refine ⟨attempt, by simpa using found, stands.alive, stands.key, stands.clientMessageId, ?_⟩
    rw [record_eventIdOf]
    exact stands.eventId
  apart := by simpa using x.apart
  pending := by
    intro entry mem recorded attempt found
    rw [record_deliveredUserEventIds] at mem
    rw [record_attempts] at found
    rcases (isRecorded_record rfl).mp recorded with known | same
    · exact x.pending entry mem known attempt found
    · exact settled entry mem same.symm attempt found
  events := by
    intro event mem
    rcases mem_record mem with mem | rfl
    · obtain ⟨other, confirmed, identity, source⟩ := x.events event mem
      refine ⟨other, confirmed, ?_, ?_⟩
      · rw [identity, record_eventIdOf, record_sessionId]
      · simpa [Source] using source
    · refine ⟨id, rfl, ?_, ?_⟩
      · rw [record_eventIdOf, record_sessionId]
        rfl
      · simpa [Source] using source
  once := nodup_record rfl x.once
  named := by simpa using x.named

/-- An attempt may change its stage. One that is rejected has no reservation and no fact. -/
theorem setAttempt (x : Ledger p) (found : p.attempts[n]? = some old)
    (msg : new.msg = old.msg) (alive : old.stage ≠ .rejected)
    (rejected : new.stage = .rejected → (∀ entry ∈ p.deliveredUserEventIds, entry.attempt ≠ n) ∧
      p.isRecorded (p.eventIdOf old.msg.id) = false)
    (resolved : old.stage = .resolved → new.stage = .resolved) :
    Ledger (p.setAttempt n new) where
  numbered := x.numbered
  reserved := by
    intro entry mem
    obtain ⟨attempt, there, stands⟩ := x.reserved entry mem
    by_cases here : entry.attempt = n
    · obtain rfl : attempt = old := by
        rw [here, found] at there
        exact (Option.some_inj.mp there).symm
      refine ⟨new, ?_, ?_, ?_, ?_, ?_⟩
      · rw [here]
        exact getElem?_setAttempt_self found
      · intro gone
        exact (rejected gone).1 entry mem here
      · rw [msg]
        exact stands.key
      · rw [msg]
        exact stands.clientMessageId
      · rw [msg]
        exact stands.eventId
    · refine ⟨attempt, ?_, stands.alive, stands.key, stands.clientMessageId, stands.eventId⟩
      rw [getElem?_setAttempt_ne here]
      exact there
  apart := by
    -- the replaced attempt has the id of the one that it replaces
    have before : ∀ (m : Nat) (a : Attempt), (p.attempts.set n new)[m]? = some a →
        a.stage ≠ .rejected → ∃ a', p.attempts[m]? = some a' ∧ a'.stage ≠ .rejected ∧
          a'.msg.id = a.msg.id := by
      intro m a foundA aliveA
      obtain ⟨rfl, rfl⟩ | ⟨-, same⟩ := getElem?_of_set foundA
      · exact ⟨old, found, alive, by rw [msg]⟩
      · exact ⟨a, same, aliveA, rfl⟩
    intro l m a b foundA foundB aliveA aliveB ids
    obtain ⟨a', foundA', aliveA', idA⟩ := before l a foundA aliveA
    obtain ⟨b', foundB', aliveB', idB⟩ := before m b foundB aliveB
    exact x.apart l m a' b' foundA' foundB' aliveA' aliveB' (idA.trans (ids.trans idB.symm))
  pending := by
    intro entry mem recorded attempt there
    obtain ⟨here, rfl⟩ | ⟨-, same⟩ := getElem?_of_set there
    · exact resolved (x.pending entry mem recorded old (here ▸ found))
    · exact x.pending entry mem recorded attempt same
  events := by
    intro event mem
    obtain ⟨id, confirmed, identity, source⟩ := x.events event mem
    refine ⟨id, confirmed, identity, ?_⟩
    rcases source with sync | ⟨attempt, there, alive', rfl⟩
    · exact Or.inl sync
    · right
      obtain ⟨m, at_⟩ := List.mem_iff_getElem?.mp there
      by_cases here : m = n
      · subst here
        obtain rfl : old = attempt := by
          rw [found] at at_
          exact Option.some_inj.mp at_
        have stays : new.stage ≠ .rejected := by
          intro gone
          have recorded : p.isRecorded (p.eventIdOf old.msg.id) = true :=
            isRecorded_iff.mpr ⟨event, mem, identity⟩
          rw [(rejected gone).2] at recorded
          cases recorded
        exact ⟨new, List.mem_of_getElem? (getElem?_setAttempt_self found), stays, by rw [msg]⟩
      · have there' := getElem?_setAttempt_ne (p := p) (a := new) here
        exact ⟨attempt, List.mem_of_getElem? (there'.trans at_), alive', rfl⟩
  once := x.once
  named := by
    intro attempt mem
    rcases List.mem_or_eq_of_mem_set mem with mem | rfl
    · exact x.named attempt mem
    · rw [msg]
      exact x.named old (List.mem_of_getElem? found)

/-- A new attempt comes with its reservation. -/
theorem attemptOnce (x : Ledger p) {msg : UserMessage} {shouldSteer : Bool} {producedAt : Int}
    (fresh : ∀ attempt ∈ p.attempts, attempt.stage ≠ .rejected → attempt.msg.id ≠ msg.id)
    (unnamed : ∀ ts ∈ p.timestamps, msg.id ≠ syncId ts) :
    Ledger (p.attemptUserDeliveryOnce msg shouldSteer producedAt) where
  numbered := by
    have below : ∀ entry ∈ p.deliveredUserEventIds, entry.attempt ≠ p.attempts.length := by
      intro entry mem same
      obtain ⟨attempt, found, -⟩ := x.reserved entry mem
      rw [same, List.getElem?_eq_none (Nat.le_refl _)] at found
      cases found
    rw [Projection.attemptUserDeliveryOnce, List.map_append, List.nodup_append]
    refine ⟨x.numbered, List.nodup_singleton _, ?_⟩
    intro a there b here
    obtain ⟨entry, mem, rfl⟩ := List.mem_map.mp there
    obtain rfl : b = p.attempts.length := by simpa using here
    exact below entry mem
  reserved := by
    intro entry mem
    rcases List.mem_append.mp mem with mem | mem
    · obtain ⟨attempt, found, stands⟩ := x.reserved entry mem
      refine ⟨attempt, ?_, stands.alive, stands.key, stands.clientMessageId, stands.eventId⟩
      have below := (List.getElem?_eq_some_iff.mp found).1
      exact (List.getElem?_append_left below).trans found
    · obtain rfl := List.mem_singleton.mp mem
      refine ⟨⟨msg, shouldSteer, producedAt, .undecided, false⟩, ?_, nofun, rfl, rfl, rfl⟩
      simp [Projection.attemptUserDeliveryOnce]
  apart := by
    intro l m a b foundA foundB aliveA aliveB ids
    obtain foundA | ⟨rfl, rfl⟩ := getElem?_append_singleton foundA <;>
      obtain foundB | ⟨rfl, rfl⟩ := getElem?_append_singleton foundB
    · exact x.apart l m a b foundA foundB aliveA aliveB ids
    · exact absurd ids (fresh a (List.mem_of_getElem? foundA) aliveA)
    · exact absurd ids.symm (fresh b (List.mem_of_getElem? foundB) aliveB)
    · rfl
  pending := by
    intro entry mem recorded attempt found
    rcases List.mem_append.mp mem with mem | mem
    · obtain ⟨attempt', found', -⟩ := x.reserved entry mem
      obtain found | ⟨number, -⟩ := getElem?_append_singleton found
      · exact x.pending entry mem recorded attempt found
      · rw [number, List.getElem?_eq_none (Nat.le_refl _)] at found'
        cases found'
    · obtain rfl := List.mem_singleton.mp mem
      -- a recorded fact would have a source, which the new id has not
      rcases x.source recorded with ⟨ts, mem, same⟩ | ⟨attempt', mem, alive, same⟩
      · exact absurd same (unnamed ts mem)
      · exact absurd same (fresh attempt' mem alive)
  events := by
    intro event mem
    obtain ⟨id, confirmed, identity, source⟩ := x.events event mem
    refine ⟨id, confirmed, identity, source.imp_right ?_⟩
    rintro ⟨attempt, mem, alive, same⟩
    exact ⟨attempt, List.mem_append_left _ mem, alive, same⟩
  once := x.once
  named := by
    intro attempt mem
    rcases List.mem_append.mp mem with mem | mem
    · exact x.named attempt mem
    · obtain rfl := List.mem_singleton.mp mem
      exact unnamed

/-- A message of the SDK is noted under a name that no attempt has. -/
theorem note (x : Ledger p) {content : Content} {ts : Int}
    (unnamed : ∀ attempt ∈ p.attempts, attempt.msg.id ≠ syncId ts) :
    Ledger (p.note content ts) :=
  { x with
    reserved := by
      intro entry mem
      obtain ⟨attempt, found, stands⟩ := x.reserved entry mem
      exact ⟨attempt, found, stands.alive, stands.key, stands.clientMessageId, stands.eventId⟩
    events := by
      intro event mem
      obtain ⟨id, confirmed, identity, source⟩ := x.events event mem
      refine ⟨id, confirmed, identity, source.imp_left ?_⟩
      rintro ⟨ts', mem, same⟩
      exact ⟨ts', List.mem_append_left _ mem, same⟩
    named := by
      intro attempt mem ts' noted
      rcases List.mem_append.mp noted with noted | noted
      · exact x.named attempt mem ts' noted
      · obtain rfl := List.mem_singleton.mp noted
        exact unnamed attempt mem }

/-- Noting a delivered message keeps the ledger. -/
theorem recordDelivered (x : Ledger p) (id : String) :
    Ledger (p.recordDeliveredUserMessageId id) :=
  { x with
    reserved := by
      intro entry mem
      obtain ⟨attempt, found, stands⟩ := x.reserved entry mem
      exact ⟨attempt, found, stands.alive, stands.key, stands.clientMessageId, stands.eventId⟩ }

/-- The fact of a message of the SDK is new when its timestamp is. -/
theorem sync_new (x : Ledger p) {ts : Int} (newTs : ts ∉ p.timestamps)
    (unnamed : ∀ attempt ∈ p.attempts, attempt.msg.id ≠ syncId ts) :
    p.isRecorded (p.eventIdOf (syncId ts)) = false := by
  rw [Bool.eq_false_iff]
  intro recorded
  rcases x.source recorded with ⟨ts', mem, same⟩ | ⟨attempt, mem, -, same⟩
  · rw [syncId_injective same] at newTs
    exact newTs mem
  · exact unnamed attempt mem same

end Ledger

/-! ## Claims and stages -/

/-- An attempt that is alive may go on without losing what it claims. -/
theorem Claimed.setAttempt (x : Claimed p) (found : p.attempts[n]? = some old)
    (msg : new.msg = old.msg) (alive : old.stage ≠ .rejected) : Claimed (p.setAttempt n new) := by
  intro m a after aliveA
  obtain ⟨rfl, rfl⟩ | ⟨-, same⟩ := getElem?_of_set after
  · have claim := x m old found alive
    rw [msg]
    exact claim
  · exact x m a same aliveA

/-- Recording an event of this session keeps every claim. -/
theorem Claimed.record (x : Claimed p) {event : TranscriptEvent}
    (here : event.sessionId = p.sessionId) : Claimed (p.record event) := by
  intro m a found alive
  rw [record_attempts] at found
  rw [record_deliveredUserEventIds, record_eventIdOf, isRecorded_record here]
  rcases x m a found alive with held | recorded
  · exact Or.inl held
  · exact Or.inr (Or.inl recorded)

/-- The stages speak of the attempts and the delivered ids only. -/
theorem Staged.congr {q : Projection} (x : Staged p) (attempts : q.attempts = p.attempts)
    (ids : q.deliveredUserMessageIds = p.deliveredUserMessageIds) : Staged q where
  unended := attempts ▸ x.unended
  canonical := attempts ▸ x.canonical
  delivered := by
    rw [attempts, ids]
    exact x.delivered

/-- One attempt is replaced, and ids may be added to those delivered. -/
theorem Staged.update {q : Projection} (x : Staged p) (attempts : q.attempts = p.attempts.set n new)
    (ids : ∀ id ∈ p.deliveredUserMessageIds, id ∈ q.deliveredUserMessageIds)
    (unended : new.stage = .undecided → new.ended = false)
    (canonical : new.stage = .accepted ∨ new.stage = .resolved → new.msg.IsCanonical)
    (delivered : new.stage = .resolved → new.msg.id ∈ q.deliveredUserMessageIds) :
    Staged q where
  unended := by
    intro attempt mem
    rw [attempts] at mem
    rcases List.mem_or_eq_of_mem_set mem with mem | rfl
    · exact x.unended attempt mem
    · exact unended
  canonical := by
    intro attempt mem
    rw [attempts] at mem
    rcases List.mem_or_eq_of_mem_set mem with mem | rfl
    · exact x.canonical attempt mem
    · exact canonical
  delivered := by
    intro attempt mem
    rw [attempts] at mem
    rcases List.mem_or_eq_of_mem_set mem with mem | rfl
    · exact fun stage => ids _ (x.delivered attempt mem stage)
    · exact delivered

end Ledger

end OutpostPi.Session.UserFacts
