import OutpostPi.Session.FallbackProjection
import Mathlib.Data.List.Nodup

/-!
# Fallback events stay with their messages

The mapping pass and the counting pass decide separately what a message is worth: one tests the
blocks of an assistant message while it makes their events, the other tests them again.
`length_mapMessage` says that they agree on every value that a message can be, so that the cursor
of the cut stands where the events of the next message begin (`sliceBySource_eq`).

`index_isSome_iff` and `fallback_events_aligned` follow: the index exists whenever the events do,
and it holds of each message entry what the loop pushed for its message.
-/

set_option autoImplicit false

namespace OutpostPi.Session.Fallback

open OutpostPi.Lib OutpostPi.Lib.Js

variable {c : Conversions} {heap : Heap} {sessionId : Str}

/-! ## Both passes agree on a message -/

theorem type_text_ne_toolCall : units "text" ≠ units "toolCall" := by decide

variable {message : Str → Value} {lastUserId : Option Str}

/-- A block counts when it has an event. -/
theorem countsAsEvent_of_blockEvent {blockIndex : Nat} {raw : Value} {event : Option Event}
    (made : blockEvent c heap sessionId message lastUserId blockIndex raw = some event) :
    countsAsEvent c heap raw = some event.isSome := by
  cases raw with
  | object id =>
    simp only [blockEvent] at made
    simp only [countsAsEvent]
    by_cases text : (ownProperties heap id).read (units "type") = .string (units "text")
    · rw [if_pos text] at made
      obtain ⟨found, converted, rfl⟩ := Option.map_eq_some_iff.mp made
      have noCall : (ownProperties heap id).read (units "type") ≠ .string (units "toolCall") := by
        rw [text]
        exact fun same => type_text_ne_toolCall (Value.string.inj same)
      rw [if_neg noCall, if_pos text, converted]
      -- The empty text is passed over by one pass and not counted by the other.
      by_cases empty : found = []
      · rw [if_pos empty, empty]
        rfl
      · rw [if_neg empty, Option.map_some, Option.isSome_some]
        exact congrArg some (bne_iff_ne.mpr empty)
    · rw [if_neg text] at made
      by_cases call : (ownProperties heap id).read (units "type") = .string (units "toolCall")
      · rw [if_pos call] at made
        obtain ⟨toolCallId, -, named⟩ := Option.bind_eq_some_iff.mp made
        obtain ⟨tool, -, rfl⟩ := Option.map_eq_some_iff.mp named
        rw [if_pos call, Option.isSome_some]
      · rw [if_neg call] at made
        cases made
        rw [if_neg call, if_neg text, Option.isSome_none]
  | _ =>
    cases made
    rfl

variable {events : List Event}

theorem countBlocks_of_assistantEvents {blocks : List Value} {blockIndex : Nat}
    (made : assistantEvents c heap sessionId message lastUserId blockIndex blocks = some events) :
    countBlocks c heap blocks = some events.length := by
  induction blocks generalizing blockIndex events with
  | nil =>
    cases made
    rfl
  | cons raw rest ih =>
    rw [assistantEvents] at made
    obtain ⟨event, first, later⟩ := Option.bind_eq_some_iff.mp made
    obtain ⟨others, tail, rfl⟩ := Option.map_eq_some_iff.mp later
    rw [countBlocks, countsAsEvent_of_blockEvent first, ih tail, Option.bind_some,
      Option.map_some, List.length_append]
    cases event with
    | none => rfl
    | some event => rfl

/-- A message has one role. -/
theorem hasRole_ne {role other : String} (has : hasRole message role = true)
    (apart : units role ≠ units other) : hasRole message other = false := by
  rw [hasRole, decide_eq_true_iff] at has
  rw [hasRole, has]
  exact decide_eq_false fun same => apart (Value.string.inj same)

variable {messageIndex : Nat}

/-- The count of a message is the number of events that are made of it. -/
theorem length_mapMessage {value : Value}
    (made : mapMessage c heap sessionId lastUserId messageIndex value = some events) :
    projectedEventCount c heap value = some events.length := by
  rw [mapMessage] at made
  obtain ⟨message, fields, made⟩ := Option.bind_eq_some_iff.mp made
  rw [projectedEventCount, fields, Option.bind_some]
  -- the two passes test the same things in another order
  by_cases compacts : isCompaction message = true
  · rw [if_pos compacts] at made
    cases made
    rw [isCompaction, Bool.or_eq_true] at compacts
    rw [if_pos]
    · rfl
    · rcases compacts with legacy | context
      · simp [legacy]
      · simp [context]
  · rw [if_neg compacts] at made
    rw [isCompaction, Bool.or_eq_true, not_or] at compacts
    by_cases user : hasRole message "user" = true
    · rw [if_pos user] at made
      obtain ⟨event, -, rfl⟩ := Option.map_eq_some_iff.mp made
      rw [if_pos (by simp [user])]
      rfl
    · rw [if_neg user] at made
      by_cases assistant : hasRole message "assistant" = true
      · rw [if_pos assistant] at made
        have noTool : hasRole message "toolResult" = false :=
          hasRole_ne assistant (by decide)
        rw [if_neg (by simp [user, noTool, compacts]), if_neg (by simp [assistant])]
        cases content : arrayItems heap (message (units "content")) with
        | none =>
          rw [content] at made
          cases made
          rfl
        | some blocks =>
          rw [content] at made
          exact countBlocks_of_assistantEvents made
      · rw [if_neg assistant] at made
        by_cases tool : hasRole message "toolResult" = true
        · rw [if_pos tool] at made
          obtain ⟨event, -, rfl⟩ := Option.map_eq_some_iff.mp made
          rw [if_pos (by simp [tool])]
          rfl
        · rw [if_neg tool] at made
          cases made
          rw [if_neg (by simp [user, tool, compacts]), if_pos (by simp [assistant])]
          rfl

/-! ## The cut -/

/-- The events of each message under the index of its entry: what the loop pushes while it is at
the message. -/
def producedEvents (c : Conversions) (heap : Heap) (sessionId : Str) :
    Option Str → Nat → List (Value × Nat) → Option (List (Nat × List Event))
  | _, _, [] => some []
  | lastUserId, messageIndex, source :: rest =>
    (mapMessage c heap sessionId lastUserId messageIndex source.1).bind fun events =>
      (producedEvents c heap sessionId (nextUserId c heap lastUserId source.1)
        (messageIndex + 1) rest).map ((source.2, events) :: ·)

/-- The loop collects the events of the messages and nothing else. -/
theorem mapMessages_eq (sources : List (Value × Nat)) (lastUserId : Option Str)
    (messageIndex : Nat) :
    mapMessages c heap sessionId lastUserId messageIndex (sources.map Prod.fst) =
      (producedEvents c heap sessionId lastUserId messageIndex sources).map
        fun produced => produced.flatMap Prod.snd := by
  induction sources generalizing lastUserId messageIndex with
  | nil => rfl
  | cons source rest ih =>
    rw [List.map_cons, mapMessages, producedEvents, ih]
    cases mapMessage c heap sessionId lastUserId messageIndex source.1 with
    | none => rfl
    | some events =>
      rw [Option.bind_some, Option.bind_some, Option.map_map, Option.map_map]
      rfl

variable {sources : List (Value × Nat)} {produced : List (Nat × List Event)}

/-- The cursor stands where the events of the next message begin. -/
theorem sliceBySource_eq
    (made : producedEvents c heap sessionId lastUserId messageIndex sources = some produced)
    (done : List Event) :
    sliceBySource c heap (done ++ produced.flatMap Prod.snd) done.length sources =
      some produced := by
  induction sources generalizing lastUserId messageIndex produced done with
  | nil =>
    cases made
    rfl
  | cons source rest ih =>
    rw [producedEvents] at made
    obtain ⟨events, own, made⟩ := Option.bind_eq_some_iff.mp made
    obtain ⟨later, tail, rfl⟩ := Option.map_eq_some_iff.mp made
    rw [sliceBySource, length_mapMessage own, Option.bind_some, List.flatMap_cons,
      List.drop_left, List.take_left, ← List.append_assoc, ← List.length_append, ih tail]
    rfl

/-- The index holds what the loop pushed for each message. -/
theorem indexPreDurable_eq (sessionId : Str) (entries : List Value) :
    indexPreDurableContextEvents c heap sessionId entries =
      (messageSources heap 0 entries).bind (producedEvents c heap sessionId none 0) := by
  rw [indexPreDurableContextEvents]
  cases messageSources heap 0 entries with
  | none => rfl
  | some sources =>
    rw [Option.bind_some, Option.bind_some, mapPreDurableSdkMessagesToTranscriptEvents,
      mapMessages_eq]
    cases made : producedEvents c heap sessionId none 0 sources with
    | none => rfl
    | some produced => exact sliceBySource_eq made []

/-! ## Messages and their entries -/

variable {entries : List Value}

/-- The entries from one index on that hold a message. -/
theorem mem_messageSources {start : Nat}
    (found : messageSources heap start entries = some sources) {message : Value} {index : Nat} :
    (message, index) ∈ sources ↔
      ∃ offset entry, index = start + offset ∧ entries[offset]? = some entry ∧
        messageOf heap entry = some (some message) := by
  induction entries generalizing start sources with
  | nil =>
    cases found
    simp
  | cons first rest ih =>
    rw [messageSources] at found
    obtain ⟨held, here, found⟩ := Option.bind_eq_some_iff.mp found
    obtain ⟨later, tail, rfl⟩ := Option.map_eq_some_iff.mp found
    rw [List.mem_append, ih tail, Option.mem_toList, Option.map_eq_some_iff]
    constructor
    · rintro (⟨own, rfl, same⟩ | ⟨offset, entry, rfl, there, holds⟩)
      · obtain ⟨rfl, rfl⟩ := Prod.mk.inj same
        exact ⟨0, first, rfl, rfl, here⟩
      · exact ⟨offset + 1, entry, by omega, there, holds⟩
    · rintro ⟨offset, entry, rfl, there, holds⟩
      cases offset with
      | zero =>
        cases there
        exact .inl ⟨message, Option.some.inj (here.symm.trans holds), rfl⟩
      | succ offset => exact .inr ⟨offset, entry, by omega, there, holds⟩

theorem pairwise_messageSources {start : Nat}
    (found : messageSources heap start entries = some sources) :
    (sources.map Prod.snd).Pairwise (· < ·) := by
  induction entries generalizing start sources with
  | nil =>
    cases found
    exact .nil
  | cons first rest ih =>
    rw [messageSources] at found
    obtain ⟨held, -, found⟩ := Option.bind_eq_some_iff.mp found
    obtain ⟨later, tail, rfl⟩ := Option.map_eq_some_iff.mp found
    cases held with
    | none => exact ih tail
    | some message =>
      refine List.pairwise_cons.mpr ⟨?_, ih tail⟩
      intro index mem
      obtain ⟨⟨other, i⟩, source, rfl⟩ := List.mem_map.mp mem
      obtain ⟨offset, -, rfl, -⟩ := (mem_messageSources tail).mp source
      dsimp only
      omega

theorem map_fst_producedEvents
    (made : producedEvents c heap sessionId lastUserId messageIndex sources = some produced) :
    produced.map Prod.fst = sources.map Prod.snd := by
  induction sources generalizing lastUserId messageIndex produced with
  | nil =>
    cases made
    rfl
  | cons source rest ih =>
    rw [producedEvents] at made
    obtain ⟨events, -, made⟩ := Option.bind_eq_some_iff.mp made
    obtain ⟨later, tail, rfl⟩ := Option.map_eq_some_iff.mp made
    rw [List.map_cons, List.map_cons, ih tail]

/-- `lastUserId` when the loop has gone through some messages. -/
def lastUserIdAfter (c : Conversions) (heap : Heap) (lastUserId : Option Str)
    (messages : List Value) : Option Str :=
  messages.foldl (nextUserId c heap) lastUserId

/-- The events at a place are those that the loop pushed for the message at that place. -/
theorem getElem?_producedEvents
    (made : producedEvents c heap sessionId lastUserId messageIndex sources = some produced)
    {k index : Nat} (here : produced[k]? = some (index, events)) :
    ∃ message, sources[k]? = some (message, index) ∧
      mapMessage c heap sessionId
        (lastUserIdAfter c heap lastUserId ((sources.map Prod.fst).take k)) (messageIndex + k)
        message = some events := by
  induction sources generalizing lastUserId messageIndex produced k with
  | nil =>
    cases made
    cases here
  | cons source rest ih =>
    rw [producedEvents] at made
    obtain ⟨first, own, made⟩ := Option.bind_eq_some_iff.mp made
    obtain ⟨later, tail, rfl⟩ := Option.map_eq_some_iff.mp made
    cases k with
    | zero =>
      obtain ⟨rfl, rfl⟩ := Prod.mk.inj (Option.some.inj here)
      exact ⟨source.1, rfl, own⟩
    | succ k =>
      obtain ⟨message, found, mapped⟩ := ih tail here
      refine ⟨message, found, ?_⟩
      rw [Nat.add_assoc, Nat.add_comm 1 k] at mapped
      exact mapped

/-! ## The index -/

/-- The attached lists divide the mapped events up among the message entries, each getting what
the loop pushed for its message. -/
structure Aligned (c : Conversions) (heap : Heap) (sessionId : Str) (entries : List Value)
    (messages : List Value) (mapped : List Event) (attached : List (Nat × List Event)) :
    Prop where
  keys : ∀ index, index ∈ attached.map Prod.fst ↔
    ∃ entry message, entries[index]? = some entry ∧ messageOf heap entry = some (some message)
  /-- No entry has two lists. -/
  ordered : (attached.map Prod.fst).Pairwise (· < ·)
  own : ∀ k index events, attached[k]? = some (index, events) →
    ∃ entry message, entries[index]? = some entry ∧
      messageOf heap entry = some (some message) ∧ messages[k]? = some message ∧
      mapMessage c heap sessionId (lastUserIdAfter c heap none (messages.take k)) k message =
        some events
  /-- No event is left over, and none is in two lists. -/
  whole : mapped = attached.flatMap Prod.snd

theorem aligned_of_produced (found : messageSources heap 0 entries = some sources)
    (made : producedEvents c heap sessionId none 0 sources = some produced) :
    Aligned c heap sessionId entries (sources.map Prod.fst) (produced.flatMap Prod.snd)
      produced where
  keys index := by
    rw [map_fst_producedEvents made]
    constructor
    · intro mem
      obtain ⟨⟨message, i⟩, source, rfl⟩ := List.mem_map.mp mem
      obtain ⟨offset, entry, same, here, holds⟩ := (mem_messageSources found).mp source
      rw [Nat.zero_add] at same
      exact ⟨entry, message, same ▸ here, holds⟩
    · rintro ⟨entry, message, here, holds⟩
      have source := (mem_messageSources found).mpr
        ⟨index, entry, (Nat.zero_add index).symm, here, holds⟩
      exact List.mem_map_of_mem (f := Prod.snd) source
  ordered := by
    rw [map_fst_producedEvents made]
    exact pairwise_messageSources found
  own k index events here := by
    obtain ⟨message, source, mapped⟩ := getElem?_producedEvents made here
    obtain ⟨offset, entry, same, there, holds⟩ :=
      (mem_messageSources found).mp (List.mem_of_getElem? source)
    rw [Nat.zero_add] at same mapped
    refine ⟨entry, message, same ▸ there, holds, ?_, mapped⟩
    rw [List.getElem?_map, source]
    rfl
  whole := rfl

/-- The index and the events exist together, and the index holds the events of each message
under its entry. -/
theorem fallback_events_aligned (c : Conversions) (heap : Heap) (sessionId : Str)
    (entries : List Value) :
    (∀ attached, indexPreDurableContextEvents c heap sessionId entries = some attached →
      ∃ sources mapped, messageSources heap 0 entries = some sources ∧
        mapPreDurableSdkMessagesToTranscriptEvents c heap sessionId (sources.map Prod.fst) =
          some mapped ∧
        Aligned c heap sessionId entries (sources.map Prod.fst) mapped attached) ∧
    ∀ sources mapped, messageSources heap 0 entries = some sources →
      mapPreDurableSdkMessagesToTranscriptEvents c heap sessionId (sources.map Prod.fst) =
        some mapped →
      ∃ attached, indexPreDurableContextEvents c heap sessionId entries = some attached ∧
        Aligned c heap sessionId entries (sources.map Prod.fst) mapped attached := by
  constructor
  · intro attached indexed
    rw [indexPreDurable_eq] at indexed
    obtain ⟨sources, found, made⟩ := Option.bind_eq_some_iff.mp indexed
    refine ⟨sources, attached.flatMap Prod.snd, found, ?_, aligned_of_produced found made⟩
    rw [mapPreDurableSdkMessagesToTranscriptEvents, mapMessages_eq, made]
    rfl
  · intro sources mapped found collected
    rw [mapPreDurableSdkMessagesToTranscriptEvents, mapMessages_eq] at collected
    obtain ⟨produced, made, rfl⟩ := Option.map_eq_some_iff.mp collected
    refine ⟨produced, ?_, aligned_of_produced found made⟩
    rw [indexPreDurable_eq, found]
    exact made

end OutpostPi.Session.Fallback
