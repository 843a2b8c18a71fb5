import OutpostPi.Session.TranscriptProjection

/-!
# What reconciliation keeps

The first pass keeps the decoded entries, the first of each event id. The events of the second
pass are cut out of one mapped list by the counts of the messages, and `slice_eq_aligned` says
that every message gets its own. A durable user fact claims at most one fallback event, an
earlier one of the same content (`Claims`).

`reconcile_conserves` adds what becomes of the rest: an unclaimed message of a user is in the
history, unless a durable fact has its fallback id or its event id. The last condition is needed
(`exists_message_shadowed`), since the log takes two events of one id for the same event.
-/

set_option autoImplicit false

namespace OutpostPi.Session

open OutpostPi.Lib

/-! ## Alignment -/

theorem isSome_blockEvent (sessionId : String) (message : SdkTranscriptMessage)
    (lastUserId : Option String) (raw : Option SdkBlock) (blockIndex : Nat) :
    (blockEvent sessionId message lastUserId raw blockIndex).isSome = countsAsEvent raw := by
  cases raw with
  | none => rfl
  | some block =>
    by_cases text : block.type = some "text"
    · by_cases empty : block.text = ""
      · simp [blockEvent, countsAsEvent, text, empty]
      · simp [blockEvent, countsAsEvent, text, empty]
    · by_cases call : block.type = some "toolCall"
      · simp [blockEvent, countsAsEvent, call]
      · simp [blockEvent, countsAsEvent, text, call]

theorem length_assistantEvents (sessionId : String) (message : SdkTranscriptMessage)
    (lastUserId : Option String) (blocks : List (Option SdkBlock)) :
    (blocks.zipIdx.filterMap fun block =>
      blockEvent sessionId message lastUserId block.1 block.2).length =
        blocks.countP countsAsEvent := by
  rw [List.length_filterMap_eq_countP]
  calc blocks.zipIdx.countP (fun block =>
        (blockEvent sessionId message lastUserId block.1 block.2).isSome)
      = blocks.zipIdx.countP (countsAsEvent ∘ Prod.fst) := by
        simp only [isSome_blockEvent]
        rfl
    _ = (blocks.zipIdx.map Prod.fst).countP countsAsEvent := by rw [List.countP_map]
    _ = blocks.countP countsAsEvent := by rw [List.zipIdx_map_fst]

/-- The count of a message is the number of its events. -/
theorem length_mapMessage (sessionId : String) (lastUserId : Option String) (messageIndex : Nat)
    (message : SdkTranscriptMessage) :
    (mapMessage sessionId lastUserId messageIndex message).length =
      projectedEventCount message := by
  rw [mapMessage, projectedEventCount]
  split
  · next compacts =>
    have roles : message.role = "compaction" ∨ message.role = "compactionSummary" := by
      simpa [SdkTranscriptMessage.isCompaction] using compacts
    rw [if_pos (Or.inr (Or.inr roles))]
    rfl
  · next plain =>
    have others : ¬ (message.role = "compaction" ∨ message.role = "compactionSummary") := by
      simpa [SdkTranscriptMessage.isCompaction] using plain
    split
    · next user =>
      rw [if_pos (Or.inl user)]
      rfl
    · next notUser =>
      split
      · next assistant =>
        rw [if_neg (by simp [assistant]), if_neg (by simp [assistant]),
          SdkTranscriptMessage.assistantBlocks]
        cases message.content with
        | blocks blocks => exact length_assistantEvents sessionId message lastUserId blocks
        | _ => rfl
      · next notAssistant =>
        split
        · next tool =>
          rw [if_pos (Or.inr (Or.inl tool))]
          rfl
        · next notTool =>
          rw [if_neg]
          · rfl
          · rintro (user | tool | compacts)
            · exact notUser user
            · exact notTool tool
            · exact others compacts

/-- The events of each message under the index of its entry. -/
def alignedEvents (sessionId : String) :
    Option String → Nat → List (SdkTranscriptMessage × Nat) → List (Nat × List TranscriptEvent)
  | _, _, [] => []
  | lastUserId, messageIndex, source :: rest =>
    (source.2, mapMessage sessionId lastUserId messageIndex source.1) ::
      alignedEvents sessionId (nextUserId lastUserId source.1) (messageIndex + 1) rest

/-- The cursor stands where the events of the next message begin. -/
theorem slice_eq_aligned (sessionId : String) (sources : List (SdkTranscriptMessage × Nat))
    (lastUserId : Option String) (messageIndex : Nat) (done : List TranscriptEvent) :
    sliceBySource
        (done ++ mapPreDurableSdkMessages sessionId lastUserId messageIndex
          (sources.map Prod.fst)) done.length sources =
      alignedEvents sessionId lastUserId messageIndex sources := by
  induction sources generalizing lastUserId messageIndex done with
  | nil => rfl
  | cons source rest ih =>
    have own := length_mapMessage sessionId lastUserId messageIndex source.1
    rw [sliceBySource, alignedEvents, List.map_cons, mapPreDurableSdkMessages, ← own,
      List.drop_left, List.take_left, ← List.append_assoc, ← List.length_append]
    rw [ih]

theorem mem_alignedEvents {sources : List (SdkTranscriptMessage × Nat)}
    {source : SdkTranscriptMessage × Nat} (mem : source ∈ sources) (sessionId : String)
    (lastUserId : Option String) (messageIndex : Nat) : ∃ last k, (source.2, mapMessage sessionId last k source.1) ∈
      alignedEvents sessionId lastUserId messageIndex sources := by
  induction sources generalizing lastUserId messageIndex with
  | nil => cases mem
  | cons first rest ih =>
    rcases List.mem_cons.mp mem with rfl | later
    · exact ⟨lastUserId, messageIndex, List.mem_cons_self⟩
    · obtain ⟨last, k, found⟩ := ih later (nextUserId lastUserId first.1) (messageIndex + 1)
      exact ⟨last, k, List.mem_cons_of_mem _ found⟩

theorem map_fst_alignedEvents (sessionId : String)
    (sources : List (SdkTranscriptMessage × Nat)) (lastUserId : Option String)
    (messageIndex : Nat) :
    (alignedEvents sessionId lastUserId messageIndex sources).map Prod.fst =
      sources.map Prod.snd := by
  induction sources generalizing lastUserId messageIndex with
  | nil => rfl
  | cons source rest ih => rw [alignedEvents, List.map_cons, List.map_cons, ih]

/-- The counts cut the events where the messages end. -/
theorem indexPreDurable_eq (sessionId : String) (entries : List SdkTranscriptContextEntry) :
    indexPreDurableContextEvents sessionId entries =
      alignedEvents sessionId none 0 (messageSources entries) :=
  slice_eq_aligned sessionId (messageSources entries) none 0 []

/-! ## Messages and their entries -/

variable {sessionId : String} {entries : List SdkTranscriptContextEntry} {index : Nat}

variable {message : SdkTranscriptMessage}

/-- The message entries with their indexes. -/
theorem mem_messageSources :
    (message, index) ∈ messageSources entries ↔
      entries[index]? = some (.message (some message)) := by
  rw [messageSources, List.mem_filterMap]
  constructor
  · rintro ⟨⟨entry, i⟩, mem, found⟩
    cases entry with
    | message content =>
      cases content with
      | none => cases found
      | some other =>
        obtain ⟨rfl, rfl⟩ : other = message ∧ i = index := by simpa using found
        exact List.mk_mem_zipIdx_iff_getElem?.mp mem
    | _ => cases found
  · intro here
    exact ⟨(.message (some message), index), List.mk_mem_zipIdx_iff_getElem?.mpr here, rfl⟩

theorem pairwise_messageSources (entries : List SdkTranscriptContextEntry) :
    (messageSources entries).Pairwise fun a b => a.2 < b.2 := by
  apply List.pairwise_filterMap.mpr
  apply (pairwise_zipIdx entries 0).imp
  rintro ⟨entry, i⟩ ⟨entry', j⟩ less source found source' found'
  have own : source.2 = i := by
    dsimp only at found
    split at found
    · cases found
      rfl
    · cases found
  have own' : source'.2 = j := by
    dsimp only at found'
    split at found'
    · cases found'
      rfl
    · cases found'
  rw [own, own']
  exact less

theorem pairwise_indexPreDurable (sessionId : String)
    (entries : List SdkTranscriptContextEntry) :
    (indexPreDurableContextEvents sessionId entries).Pairwise fun a b => a.1 < b.1 := by
  rw [indexPreDurable_eq]
  have keys : ((alignedEvents sessionId none 0 (messageSources entries)).map Prod.fst).Pairwise
      (· < ·) := by
    rw [map_fst_alignedEvents]
    exact List.pairwise_map.mpr (pairwise_messageSources entries)
  exact List.pairwise_map.mp keys

/-- The fallback events of a message are those it is mapped to. -/
theorem fallbackAt_message (sessionId : String)
    (here : entries[index]? = some (.message (some message))) :
    ∃ last k, fallbackAt (indexPreDurableContextEvents sessionId entries) index =
      mapMessage sessionId last k message := by
  obtain ⟨last, k, mem⟩ := mem_alignedEvents (mem_messageSources.mpr here) sessionId none 0
  refine ⟨last, k, ?_⟩
  rw [← indexPreDurable_eq] at mem
  rw [fallbackAt, valueAt_of_mem (pairwise_indexPreDurable sessionId entries) mem]
  rfl

variable {event : TranscriptEvent}

/-- What is not a message has no fallback events. -/
theorem message_of_mem_fallbackAt
    (mem : event ∈ fallbackAt (indexPreDurableContextEvents sessionId entries) index) :
    ∃ message last k, entries[index]? = some (.message (some message)) ∧
      event ∈ mapMessage sessionId last k message := by
  cases found : valueAt (indexPreDurableContextEvents sessionId entries) index with
  | none =>
    rw [fallbackAt, found] at mem
    cases mem
  | some events =>
    have keys := List.mem_map_of_mem (f := Prod.fst) (mem_of_valueAt found)
    rw [indexPreDurable_eq, map_fst_alignedEvents] at keys
    obtain ⟨⟨message, i⟩, source, same⟩ := List.mem_map.mp keys
    obtain rfl : i = index := same
    have here := mem_messageSources.mp source
    obtain ⟨last, k, eq⟩ := fallbackAt_message sessionId here
    exact ⟨message, last, k, here, eq ▸ mem⟩

/-! ## Durable events -/

/-- A decoded event comes from its entry, and is moved to the session. -/
theorem mem_decodedByIndex (mem : (index, event) ∈ decodedByIndex sessionId entries) :
    ∃ entry decoded, entries[index]? = some entry ∧
      decodeDurableTranscriptEntry entry = .decoded decoded ∧
        event = { decoded with sessionId := sessionId } := by
  obtain ⟨⟨entry, i⟩, source, found⟩ := List.mem_filterMap.mp (mem_of_mem_keepFirst mem)
  dsimp only at found
  split at found
  · next decoded is =>
    obtain ⟨rfl, rfl⟩ : i = index ∧ { decoded with sessionId := sessionId } = event := by
      simpa using found
    exact ⟨entry, decoded, List.mk_mem_zipIdx_iff_getElem?.mp source, is, rfl⟩
  · cases found

theorem pairwise_decodings (sessionId : String) (entries : List SdkTranscriptContextEntry) :
    (entries.zipIdx.filterMap fun source =>
      match decodeDurableTranscriptEntry source.1 with
      | .decoded event => some (source.2, { event with sessionId := sessionId })
      | _ => none).Pairwise fun a b => a.1 < b.1 := by
  apply List.pairwise_filterMap.mpr
  apply (pairwise_zipIdx entries 0).imp
  rintro ⟨entry, i⟩ ⟨entry', j⟩ less decoded found decoded' found'
  have own : decoded.1 = i := by
    dsimp only at found
    split at found
    · cases found
      rfl
    · cases found
  have own' : decoded'.1 = j := by
    dsimp only at found'
    split at found'
    · cases found'
      rfl
    · cases found'
  rw [own, own']
  exact less

/-- The decoded events stand in the order of their entries. -/
theorem pairwise_decodedByIndex (sessionId : String) (entries : List SdkTranscriptContextEntry) :
    (decodedByIndex sessionId entries).Pairwise fun a b => a.1 < b.1 :=
  (pairwise_decodings sessionId entries).sublist (keepFirst_sublist _ _)

/-- The first decoded event of an event id is kept. -/
theorem exists_decoded_first {entry : SdkTranscriptContextEntry} {decoded : TranscriptEvent}
    (sessionId : String) (here : entries[index]? = some entry)
    (is : decodeDurableTranscriptEntry entry = .decoded decoded) :
    ∃ first event, first ≤ index ∧ (first, event) ∈ decodedByIndex sessionId entries ∧
      event.eventId = decoded.eventId := by
  have mem : (index, { decoded with sessionId := sessionId }) ∈
      entries.zipIdx.filterMap fun source =>
        match decodeDurableTranscriptEntry source.1 with
        | .decoded event => some (source.2, { event with sessionId := sessionId })
        | _ => none := by
    refine List.mem_filterMap.mpr
      ⟨(entry, index), List.mk_mem_zipIdx_iff_getElem?.mpr here, ?_⟩
    dsimp only
    rw [is]
  obtain ⟨⟨first, event⟩, kept, same, order⟩ :=
    exists_kept (fun decoded => decoded.2.eventId) (pairwise_decodings sessionId entries)
      mem (List.not_mem_nil)
  refine ⟨first, event, ?_, kept, same⟩
  rcases order with eq | less
  · exact (congrArg Prod.fst eq).le
  · exact less.le

section Parts

variable {dateParse : String → Option Int}

/-- A decoded entry contributes its event. -/
theorem contribution_of_decoded {entry : SdkTranscriptContextEntry} {durable : TranscriptEvent}
    (found : valueAt (decodedByIndex sessionId entries) index = some durable) :
    contribution dateParse sessionId entries index entry = [durable] := by
  simp only [contribution, found]

/-- The durable events of the output are the decoded ones, in the order of their entries. -/
theorem durable_part (dateParse : String → Option Int) (sessionId : String)
    (entries : List SdkTranscriptContextEntry) :
    (reconcileByEntry dateParse sessionId entries).filter (fun placed =>
      (valueAt (decodedByIndex sessionId entries) placed.1).isSome) =
        decodedByIndex sessionId entries := by
  have each : ∀ source : SdkTranscriptContextEntry × Nat,
      ((contribution dateParse sessionId entries source.2 source.1).map
        (Prod.mk source.2)).filter (fun placed =>
          (valueAt (decodedByIndex sessionId entries) placed.1).isSome) =
        (valueAt (decodedByIndex sessionId entries) source.2).toList.map (Prod.mk source.2) := by
    intro source
    cases found : valueAt (decodedByIndex sessionId entries) source.2 with
    | none =>
      apply List.filter_eq_nil_iff.mpr
      intro placed mem
      obtain ⟨event, -, rfl⟩ := List.mem_map.mp mem
      rw [found]
      exact Bool.false_ne_true
    | some durable =>
      rw [contribution_of_decoded found, List.map_singleton, List.filter_cons_of_pos]
      · rfl
      · rw [found]
        rfl
  rw [reconcileByEntry, List.filter_flatMap]
  simp only [each]
  have indexes : entries.zipIdx.flatMap (fun source =>
      (valueAt (decodedByIndex sessionId entries) source.2).toList.map (Prod.mk source.2)) =
      (List.range' 0 entries.length).flatMap (fun i =>
        (valueAt (decodedByIndex sessionId entries) i).toList.map (Prod.mk i)) := by
    rw [← List.zipIdx_map_snd 0 entries, List.flatMap_map]
  rw [indexes, flatMap_valueAt (pairwise_decodedByIndex sessionId entries)]
  rintro ⟨i, event⟩ mem
  obtain ⟨entry, -, here, -⟩ := mem_decodedByIndex mem
  refine ⟨Nat.zero_le _, ?_⟩
  rw [Nat.zero_add]
  exact (List.getElem?_eq_some_iff.mp here).1

end Parts

/-! ## Claims -/

/-- The entry is a message of the user. -/
def IsUserMessage (entries : List SdkTranscriptContextEntry) (index : Nat)
    (message : SdkTranscriptMessage) : Prop :=
  entries[index]? = some (.message (some message)) ∧ message.role = "user"

/-- A message of the user has one fallback event. -/
theorem mapMessage_user (user : message.role = "user") (sessionId : String)
    (lastUserId : Option String) (messageIndex : Nat) :
    mapMessage sessionId lastUserId messageIndex message =
      [fallbackUserEvent sessionId message] := by
  have plain : message.isCompaction = false := by simp [SdkTranscriptMessage.isCompaction, user]
  rw [mapMessage, if_neg (by simp [plain]), if_pos user]

/-- The kinds of fallback events other than those of user messages. -/
def otherFallbackKinds : List String :=
  ["compaction_recorded", "assistant_committed", "tool_requested", "tool_finished"]

/-- A fallback event is that of a user message, or one of the other kinds. -/
theorem mem_mapMessage {lastUserId : Option String} {messageIndex : Nat}
    (mem : event ∈ mapMessage sessionId lastUserId messageIndex message) :
    (message.role = "user" ∧ event = fallbackUserEvent sessionId message) ∨
      event.fact.userMessage? = none ∧ event.fact.kind ∈ otherFallbackKinds ∧
        ∃ ts stableKey, event = fallbackEvent sessionId ts stableKey event.fact := by
  rw [mapMessage] at mem
  split at mem
  · obtain rfl := List.mem_singleton.mp mem
    exact Or.inr ⟨rfl, by simp [fallbackEvent, TranscriptFact.kind, otherFallbackKinds],
      _, _, rfl⟩
  · split at mem
    · next user => exact Or.inl ⟨user, List.mem_singleton.mp mem⟩
    · split at mem
      · obtain ⟨⟨raw, blockIndex⟩, -, found⟩ := List.mem_filterMap.mp mem
        obtain ⟨block, -, made⟩ := Option.bind_eq_some_iff.mp found
        dsimp only at made
        split at made
        · split at made
          · cases made
          · cases made
            exact Or.inr ⟨rfl, by simp [fallbackEvent, TranscriptFact.kind, otherFallbackKinds],
              _, _, rfl⟩
        · split at made
          · cases made
            exact Or.inr ⟨rfl, by simp [fallbackEvent, TranscriptFact.kind, otherFallbackKinds],
              _, _, rfl⟩
          · cases made
      · split at mem
        · obtain rfl := List.mem_singleton.mp mem
          right
          split
          · exact ⟨rfl, by simp [fallbackEvent, TranscriptFact.kind, otherFallbackKinds],
              _, _, rfl⟩
          · exact ⟨rfl, by simp [fallbackEvent, TranscriptFact.kind, otherFallbackKinds],
              _, _, rfl⟩
        · cases mem

/-- Its entry has this event and no other. -/
theorem fallbackAt_user (user : IsUserMessage entries index message) (sessionId : String) :
    fallbackAt (indexPreDurableContextEvents sessionId entries) index =
      [fallbackUserEvent sessionId message] := by
  obtain ⟨last, k, eq⟩ := fallbackAt_message sessionId user.1
  rw [eq, mapMessage_user user.2]

/-- A fallback event that has the signature of a user message is that of one. -/
theorem user_of_signature {signature : String × List WireImage}
    (mem : event ∈ fallbackAt (indexPreDurableContextEvents sessionId entries) index)
    (signed : userSignature event = some signature) :
    ∃ message, IsUserMessage entries index message ∧
      signature = (stringifyContent message.content, imagesFromContent message.content) := by
  obtain ⟨message, last, k, here, mapped⟩ := message_of_mem_fallbackAt mem
  rcases mem_mapMessage mapped with ⟨user, rfl⟩ | ⟨none, -⟩
  · refine ⟨message, ⟨here, user⟩, ?_⟩
    rw [userSignature, fallbackUserEvent, fallbackEvent, SdkTranscriptMessage.userFact] at signed
    cases signed
    cases images : imagesFromContent message.content with
    | nil => rfl
    | cons image images => rfl
  · rw [userSignature, none] at signed
    cases signed

/-- The nearest fallback event is an earlier one of the signature that is not claimed yet. -/
theorem nearestFallback_spec {fallback : List (Nat × List TranscriptEvent)}
    {claimed : List Nat} {signature : String × List WireImage} {bound : Nat}
    (found : nearestFallback fallback claimed signature bound = some index) :
    index < bound ∧ index ∉ claimed ∧
      ∃ event ∈ fallbackAt fallback index, userSignature event = some signature := by
  induction bound with
  | zero => cases found
  | succ bound ih =>
    rw [nearestFallback] at found
    split at found
    · next free =>
      cases found
      obtain ⟨event, mem, signed⟩ := List.any_eq_true.mp free.2
      exact ⟨Nat.lt_succ_self _, free.1, event, mem, of_decide_eq_true signed⟩
    · obtain ⟨less, rest⟩ := ih found
      exact ⟨Nat.lt_succ_of_lt less, rest⟩

/-- A claim of a durable fact on an earlier fallback event of the same content. -/
def Justified (fallback : List (Nat × List TranscriptEvent)) (durables : List (Nat × TranscriptEvent))
    (claim : UserClaim) : Prop :=
  claim.fallbackIndex < claim.durableIndex ∧
    ∃ durable text images, (claim.durableIndex, durable) ∈ durables ∧
      durable.fact.userMessage? = some (claim.clientMessageId, text, images) ∧
        ∃ event ∈ fallbackAt fallback claim.fallbackIndex,
          userSignature event = some (transcriptUserContentSignature text images)

/-- A claim stays justified under more durable facts. -/
theorem Justified.mono {fallback : List (Nat × List TranscriptEvent)}
    {durables : List (Nat × TranscriptEvent)} {first : Nat × TranscriptEvent} {claim : UserClaim}
    (justified : Justified fallback durables claim) :
    Justified fallback (first :: durables) claim := by
  obtain ⟨less, durable, text, images, mem, rest⟩ := justified
  exact ⟨less, durable, text, images, List.mem_cons_of_mem first mem, rest⟩

/-- What the claims of a list of durable facts are, after other claims have been made. -/
structure Claims (fallback : List (Nat × List TranscriptEvent))
    (durables : List (Nat × TranscriptEvent)) (clientMessageIds : List String)
    (claimed : List Nat) (claims : List UserClaim) : Prop where
  justified : ∀ claim ∈ claims, Justified fallback durables claim
  newIds : ∀ claim ∈ claims, claim.clientMessageId ∉ clientMessageIds
  newIndexes : ∀ claim ∈ claims, claim.fallbackIndex ∉ claimed
  ids : (claims.map UserClaim.clientMessageId).Nodup
  indexes : (claims.map UserClaim.fallbackIndex).Nodup

/-- Each durable fact makes at most one claim, on an event that no other has claimed. -/
theorem claims_bindDurableUserClaims (fallback : List (Nat × List TranscriptEvent))
    (durables : List (Nat × TranscriptEvent)) (clientMessageIds : List String)
    (claimed : List Nat) : Claims fallback durables clientMessageIds claimed
      (bindDurableUserClaims fallback durables clientMessageIds claimed) := by
  induction durables generalizing clientMessageIds claimed with
  | nil => exact ⟨by simp [bindDurableUserClaims], by simp [bindDurableUserClaims],
      by simp [bindDurableUserClaims], List.nodup_nil, List.nodup_nil⟩
  | cons durable rest ih =>
    rw [bindDurableUserClaims]
    split
    -- not a user message: nothing is claimed for it
    · have claims := ih clientMessageIds claimed
      exact { claims with justified := fun claim mem => (claims.justified claim mem).mono }
    · next clientMessageId text images is =>
      split
      · have claims := ih clientMessageIds claimed
        exact { claims with justified := fun claim mem => (claims.justified claim mem).mono }
      · next fresh =>
        split
        · have claims := ih (clientMessageId :: clientMessageIds) claimed
          exact ⟨fun claim mem => (claims.justified claim mem).mono,
            fun claim mem known =>
              claims.newIds claim mem (List.mem_cons_of_mem _ known),
            claims.newIndexes, claims.ids, claims.indexes⟩
        · next index found =>
          -- the nearest fallback that is still free is claimed, with the same content
          obtain ⟨less, free, signed⟩ := nearestFallback_spec found
          have claims := ih (clientMessageId :: clientMessageIds) (index :: claimed)
          constructor
          · intro claim mem
            rcases List.mem_cons.mp mem with rfl | later
            · exact ⟨less, durable.2, text, images, List.mem_cons_self, is, signed⟩
            · exact (claims.justified claim later).mono
          · intro claim mem
            rcases List.mem_cons.mp mem with rfl | later
            · exact fresh
            · exact fun known => claims.newIds claim later (List.mem_cons_of_mem _ known)
          · intro claim mem
            rcases List.mem_cons.mp mem with rfl | later
            · exact free
            · exact fun known => claims.newIndexes claim later (List.mem_cons_of_mem _ known)
          · rw [List.map_cons, List.nodup_cons]
            refine ⟨fun again => ?_, claims.ids⟩
            obtain ⟨claim, mem, same⟩ := List.mem_map.mp again
            exact claims.newIds claim mem (same ▸ List.mem_cons_self)
          · rw [List.map_cons, List.nodup_cons]
            refine ⟨fun again => ?_, claims.indexes⟩
            obtain ⟨claim, mem, same⟩ := List.mem_map.mp again
            exact claims.newIndexes claim mem (same ▸ List.mem_cons_self)

/-! ## Identities -/

/-- Numbers have different texts. -/
theorem toDecimal_injective : Function.Injective toDecimal := by
  intro m n same
  have read := congrArg ofDecimal same
  rw [ofDecimal_toDecimal, ofDecimal_toDecimal] at read
  exact Option.some.inj read

/-- A decimal does not begin with a sign. -/
theorem toDecimal_ne_negative (m n : Nat) : toDecimal m ≠ "-" ++ toDecimal n := by
  intro same
  have chars := congrArg String.toList same
  rw [String.toList_append] at chars
  have digits := isDigit_of_mem_toDigits m
  have head : '-' ∈ (toDecimal m).toList := by
    rw [chars]
    simp
  rw [toDecimal, String.toList_ofList] at head
  exact absurd (List.all_eq_true.mp digits '-' head) (by decide)

theorem numberText_injective : Function.Injective numberText := by
  intro a b same
  cases a with
  | ofNat m =>
    cases b with
    | ofNat n => rw [toDecimal_injective same]
    | negSucc n => exact absurd same (toDecimal_ne_negative m (n + 1))
  | negSucc m =>
    cases b with
    | ofNat n => exact absurd same.symm (toDecimal_ne_negative n (m + 1))
    | negSucc n =>
      have digits : toDecimal (m + 1) = toDecimal (n + 1) := by
        simpa [numberText] using same
      rw [Nat.succ.inj (toDecimal_injective digits)]

/-- Messages of different times have different ids. -/
theorem syncId_injective : Function.Injective syncId := by
  intro a b same
  exact numberText_injective (by simpa [syncId] using same)

/-- In one session the kind and the stable key follow the same prefix. -/
theorem stableKey_of_eventId {kind kind' stableKey stableKey' : String}
    (same : deterministicTranscriptEventId sessionId kind stableKey =
      deterministicTranscriptEventId sessionId kind' stableKey') :
    kind.toList ++ ':' :: stableKey.toList = kind'.toList ++ ':' :: stableKey'.toList := by
  have chars := congrArg String.toList same
  simpa [deterministicTranscriptEventId, String.toList_append] using chars

/-- The fallback event of a user message shares its id with no fallback event of another kind. -/
theorem eventId_ne_of_other {ts ts' : Int} {stableKey stableKey' : String} {fact : TranscriptFact}
    (other : fact.kind ∈ otherFallbackKinds) :
    (fallbackEvent sessionId ts stableKey fact).eventId ≠
      (fallbackEvent sessionId ts' stableKey' message.userFact).eventId := by
  intro same
  have chars := stableKey_of_eventId same
  simp only [otherFallbackKinds, List.mem_cons, List.not_mem_nil, or_false] at other
  rcases other with kind | kind | kind | kind <;>
    · rw [kind] at chars
      simp [SdkTranscriptMessage.userFact, TranscriptFact.kind] at chars

/-- Messages of the user with the same event id are of the same time. -/
theorem eventId_fallbackUserEvent {message' : SdkTranscriptMessage}
    (same : (fallbackUserEvent sessionId message).eventId =
      (fallbackUserEvent sessionId message').eventId) : message.ts = message'.ts := by
  have chars := stableKey_of_eventId same
  apply syncId_injective
  apply String.ext
  simpa [SdkTranscriptMessage.userFact, TranscriptFact.kind] using chars

/-! ## The output -/

section Output

variable {dateParse : String → Option Int}

/-- A message entry is not decoded. -/
theorem not_decoded_of_message {message : Option SdkTranscriptMessage}
    (here : entries[index]? = some (.message message)) :
    valueAt (decodedByIndex sessionId entries) index = none := by
  rw [valueAt_eq_none_iff]
  intro mem
  obtain ⟨⟨i, event⟩, decoded, same⟩ := List.mem_map.mp mem
  obtain rfl : i = index := same
  obtain ⟨entry, _, there, is, -⟩ := mem_decodedByIndex decoded
  obtain rfl := Option.some.inj (here.symm.trans there)
  cases is

/-- The output consists of what the entries contribute. -/
theorem mem_reconcileByEntry_iff :
    (index, event) ∈ reconcileByEntry dateParse sessionId entries ↔
      ∃ entry, entries[index]? = some entry ∧
        event ∈ contribution dateParse sessionId entries index entry := by
  rw [reconcileByEntry, List.mem_flatMap]
  constructor
  · rintro ⟨⟨entry, i⟩, source, mem⟩
    obtain ⟨other, given, same⟩ := List.mem_map.mp mem
    obtain ⟨rfl, rfl⟩ : i = index ∧ other = event := by simpa using same
    exact ⟨entry, List.mk_mem_zipIdx_iff_getElem?.mp source, given⟩
  · rintro ⟨entry, here, given⟩
    exact ⟨(entry, index), List.mk_mem_zipIdx_iff_getElem?.mpr here,
      List.mem_map.mpr ⟨event, given, rfl⟩⟩

/-- A message of the user contributes its fallback event unless that is claimed. -/
theorem contribution_user (user : IsUserMessage entries index message) :
    contribution dateParse sessionId entries index (.message (some message)) =
      if index ∈ claimedFallbackUserIndexes sessionId entries then []
      else [fallbackUserEvent sessionId message] := by
  simp only [contribution, not_decoded_of_message user.1, fallbackAt_user user sessionId]
  split
  · next claimed =>
    apply List.filter_eq_nil_iff.mpr
    intro event mem
    rw [List.mem_singleton.mp mem]
    simp [isClaimedByDurable, fallbackUserEvent, fallbackEvent, SdkTranscriptMessage.userFact,
      claimed]
  · next unclaimed =>
    apply List.filter_eq_self.mpr
    intro event mem
    rw [List.mem_singleton.mp mem]
    simp [isClaimedByDurable, fallbackUserEvent, fallbackEvent, SdkTranscriptMessage.userFact,
      unclaimed]

/-- The fallback event of a user message is left out exactly when it is claimed. -/
theorem fallbackUserEvent_kept_iff (user : IsUserMessage entries index message) :
    (index, fallbackUserEvent sessionId message) ∈ reconcileByEntry dateParse sessionId entries ↔
      index ∉ claimedFallbackUserIndexes sessionId entries := by
  rw [mem_reconcileByEntry_iff]
  constructor
  · rintro ⟨entry, here, given⟩ claimed
    obtain rfl := Option.some.inj (user.1.symm.trans here)
    rw [contribution_user user, if_pos claimed] at given
    cases given
  · intro unclaimed
    refine ⟨_, user.1, ?_⟩
    rw [contribution_user user, if_neg unclaimed]
    exact List.mem_singleton_self _

/-- Where an event of the output comes from. -/
inductive Origin (sessionId : String) (entries : List SdkTranscriptContextEntry) (index : Nat)
    (event : TranscriptEvent) : Prop
  | durable (mem : (index, event) ∈ decodedByIndex sessionId entries)
  | user (message : SdkTranscriptMessage) (user : IsUserMessage entries index message)
      (is : event = fallbackUserEvent sessionId message)
  | other (plain : event.fact.userMessage? = none) (kind : event.fact.kind ∈ otherFallbackKinds)
      (made : ∃ ts stableKey, event = fallbackEvent sessionId ts stableKey event.fact)

/-- Every event of the output is a durable event of its entry, or made of it. -/
theorem origin_of_mem (mem : (index, event) ∈ reconcileByEntry dateParse sessionId entries) :
    Origin sessionId entries index event := by
  obtain ⟨entry, here, given⟩ := mem_reconcileByEntry_iff.mp mem
  cases found : valueAt (decodedByIndex sessionId entries) index with
  | some durable =>
    rw [contribution_of_decoded found] at given
    rw [List.mem_singleton.mp given]
    exact .durable (mem_of_valueAt found)
  | none =>
    simp only [contribution, found] at given
    cases entry with
    | message content =>
      have mapped := (List.mem_filter.mp given).1
      obtain ⟨message, last, k, there, mapped⟩ := message_of_mem_fallbackAt mapped
      rcases mem_mapMessage mapped with ⟨user, is⟩ | ⟨plain, kind, made⟩
      · exact .user message ⟨there, user⟩ is
      · exact .other plain kind made
    | compaction summary tokensBefore timestamp =>
      dsimp only at given
      split at given
      · cases given
      · obtain rfl := List.mem_singleton.mp given
        exact .other rfl (by simp [compactionEvent, fallbackEvent, TranscriptFact.kind,
          otherFallbackKinds]) ⟨_, _, rfl⟩
    | custom customType data => cases given
    | other => cases given

/-- Every event of the output belongs to the session. -/
theorem Origin.sessionId_eq (origin : Origin sessionId entries index event) :
    event.sessionId = sessionId := by
  cases origin with
  | durable mem =>
    obtain ⟨entry, decoded, -, -, rfl⟩ := mem_decodedByIndex mem
    rfl
  | user message user is => rw [is]; rfl
  | other plain kind made =>
    obtain ⟨ts, stableKey, eq⟩ := made
    rw [eq]
    rfl

end Output

/-! ## The history -/

/-- An event of a known identity is not installed. -/
theorem events_install (log : TranscriptEventLog) (event : TranscriptEvent) :
    (log.install event).events =
      if event.identity ∈ log.events.map TranscriptEvent.identity then log.events
      else log.events ++ [event] := by
  rw [TranscriptEventLog.install]
  split <;> rfl

/-- Hydration appends the first event of every new identity. -/
theorem events_hydrate (log : TranscriptEventLog) (events : List TranscriptEvent) :
    (log.hydrate events).events = log.events ++
      keepFirst TranscriptEvent.identity (log.events.map TranscriptEvent.identity) events := by
  rw [TranscriptEventLog.hydrate]
  induction events generalizing log with
  | nil => simp [keepFirst]
  | cons event rest ih =>
    rw [List.foldl_cons, ih, events_install]
    by_cases known : event.identity ∈ log.events.map TranscriptEvent.identity
    · rw [if_pos known, keepFirst_cons_of_seen known]
    · rw [if_neg known, keepFirst_cons_of_new known, List.append_assoc, List.singleton_append,
        List.map_append]
      congr 2
      apply keepFirst_congr
      intro identity
      simp [or_comm]

/-- The message is in the history of the hydrated output, under every large limit. -/
def Replayed (dateParse : String → Option Int) (sessionId : String)
    (entries : List SdkTranscriptContextEntry) (message : SdkTranscriptMessage) : Prop :=
  let output := reconcileTranscriptContextEntries dateParse sessionId entries
  let log := TranscriptEventLog.empty.hydrate output
  let images := imagesFromContent message.content
  ∃ bound : Int, ∀ limit ≥ bound,
    .userInput message.ts (syncId message.ts) (stringifyContent message.content)
        (if images.isEmpty then none else some images) none ∈
      (projectSessionHistory sessionId (log.forSession sessionId) limit).events

variable {events : List TranscriptEvent}

/-- A limit that is at least the number of events cuts nothing off. -/
theorem events_projectSessionHistory {limit : Int}
    (large : ((transcriptEventsToSessionHistory ((dedupeTranscriptEvents events).filter fun event =>
      event.sessionId = sessionId)).length : Int) ≤ limit) :
    (projectSessionHistory sessionId events limit).events =
      transcriptEventsToSessionHistory ((dedupeTranscriptEvents events).filter fun event =>
        event.sessionId = sessionId) := by
  rw [projectSessionHistory]
  dsimp only
  split
  · rw [Nat.sub_eq_zero_of_le (by omega), List.drop_zero]
  · next none =>
    symm
    apply List.eq_nil_of_length_eq_zero
    omega

/-- A limit only cuts events off. -/
theorem events_subset_history {limit : Int} {wire : SessionHistoryEvent}
    (mem : wire ∈ (projectSessionHistory sessionId events limit).events) :
    wire ∈ transcriptEventsToSessionHistory ((dedupeTranscriptEvents events).filter fun event =>
      event.sessionId = sessionId) := by
  rw [projectSessionHistory] at mem
  dsimp only at mem
  split at mem
  · exact List.mem_of_mem_drop mem
  · cases mem

theorem wireImages_nonempty (images : List WireImage) :
    wireImages (if images.isEmpty then none else some images) =
      if images.isEmpty then none else some images := by
  cases images <;> rfl

/-- An item of a user message comes from a message of that id. -/
theorem userMessage_of_historyEntry {finished : List String} {clientMessageId : String}
    {wire : SessionHistoryEvent}
    (entry : historyEntry finished event = some (.user clientMessageId, wire)) :
    event.fact.userMessage?.map Prod.fst = some clientMessageId := by
  cases fact : event.fact with
  | toolRequested toolCallId tool args =>
    simp only [historyEntry, fact] at entry
    split at entry <;> simp at entry
  | _ => simp_all [historyEntry, TranscriptFact.userMessage?]

/-- An event that shares its identity and its client message id with no other one is replayed
under every large limit. -/
theorem userInput_of_unique {clientMessageId text : String} {images : Option (List WireImage)}
    (mem : event ∈ events) (own : event.sessionId = sessionId)
    (fact : event.fact = .userConfirmed clientMessageId text images none)
    (alone : ∀ other ∈ events, other.identity = event.identity → other = event)
    (only : ∀ other ∈ events, other.fact.userMessage?.map Prod.fst = some clientMessageId →
      other = event) :
    ∃ bound : Int, ∀ limit ≥ bound,
      .userInput event.ts clientMessageId text (wireImages images) none ∈
        (projectSessionHistory sessionId events limit).events := by
  refine ⟨((transcriptEventsToSessionHistory ((dedupeTranscriptEvents events).filter fun event =>
    event.sessionId = sessionId)).length : Int), fun limit large => ?_⟩
  rw [events_projectSessionHistory large, transcriptEventsToSessionHistory]
  have kept : event ∈ (dedupeTranscriptEvents events).filter fun event =>
      event.sessionId = sessionId :=
    List.mem_filter.mpr ⟨mem_keepFirst_of_unique _ mem alone, decide_eq_true own⟩
  generalize survivors : (dedupeTranscriptEvents events).filter
    (fun event => event.sessionId = sessionId) = deduped at kept ⊢
  have subset : ∀ other ∈ deduped, other ∈ events := by
    intro other here
    rw [← survivors] at here
    exact mem_of_mem_keepFirst (List.mem_filter.mp here).1
  have entry : historyEntry (finishedToolIds deduped) event =
      some (.user clientMessageId,
        .userInput event.ts clientMessageId text (wireImages images) none) := by
    rw [historyEntry, fact]
  have shown := List.mem_filterMap.mpr ⟨event, kept, entry⟩
  have first := mem_keepFirst_of_unique Prod.fst shown ?_
  · exact List.mem_map.mpr ⟨_, first, rfl⟩
  -- Only this event has the key.
  rintro ⟨key, wire⟩ other same
  obtain rfl : key = .user clientMessageId := same
  obtain ⟨source, here, produced⟩ := List.mem_filterMap.mp other
  have again := only source (subset source here) (userMessage_of_historyEntry produced)
  rw [again, entry] at produced
  exact (Option.some.inj produced).symm

/-- A fallback event in the output is replayed when no durable fact has its ids. -/
theorem replayed_of_unclaimed (dateParse : String → Option Int)
    (distinct : ∀ i j message message', IsUserMessage entries i message →
      IsUserMessage entries j message' → message.ts = message'.ts → i = j)
    (user : IsUserMessage entries index message)
    (unclaimed : index ∉ claimedFallbackUserIndexes sessionId entries)
    (clientIds : ∀ durable ∈ decodedByIndex sessionId entries,
      durable.2.fact.userMessage?.map Prod.fst ≠ some (syncId message.ts))
    (eventIds : ∀ durable ∈ decodedByIndex sessionId entries,
      durable.2.eventId ≠ (fallbackUserEvent sessionId message).eventId) :
    Replayed dateParse sessionId entries message := by
  -- An event of the output with one of the two ids comes from this very message.
  have same_message : ∀ i message', IsUserMessage entries i message' →
      message.ts = message'.ts → message' = message := by
    intro i message' user' ts
    obtain rfl := distinct index i message message' user user' ts
    simpa using user'.1.symm.trans user.1
  have output : fallbackUserEvent sessionId message ∈
      reconcileTranscriptContextEntries dateParse sessionId entries :=
    List.mem_map.mpr ⟨_, (fallbackUserEvent_kept_iff user).mpr unclaimed, rfl⟩
  have origins : ∀ event ∈ reconcileTranscriptContextEntries dateParse sessionId entries,
      ∃ i, Origin sessionId entries i event := by
    intro event mem
    obtain ⟨⟨i, _⟩, here, rfl⟩ := List.mem_map.mp mem
    exact ⟨i, origin_of_mem here⟩
  have alone : ∀ event ∈ reconcileTranscriptContextEntries dateParse sessionId entries,
      event.identity = (fallbackUserEvent sessionId message).identity →
        event = fallbackUserEvent sessionId message := by
    intro event mem same
    have ids : event.eventId = (fallbackUserEvent sessionId message).eventId :=
      congrArg Prod.snd same
    obtain ⟨i, origin⟩ := origins event mem
    cases origin with
    | durable mem => exact absurd ids (eventIds _ mem)
    | user message' user' is =>
      subst is
      rw [same_message i message' user' (eventId_fallbackUserEvent ids).symm]
    | other plain kind made =>
      obtain ⟨ts, stableKey, eq⟩ := made
      rw [eq] at ids
      exact absurd ids (eventId_ne_of_other kind)
  have only : ∀ event ∈ reconcileTranscriptContextEntries dateParse sessionId entries,
      event.fact.userMessage?.map Prod.fst = some (syncId message.ts) →
        event = fallbackUserEvent sessionId message := by
    intro event mem same
    obtain ⟨i, origin⟩ := origins event mem
    cases origin with
    | durable mem => exact absurd same (clientIds _ mem)
    | user message' user' is =>
      subst is
      have ts : syncId message'.ts = syncId message.ts := Option.some.inj same
      rw [same_message i message' user' (syncId_injective ts).symm]
    | other plain kind made =>
      rw [plain] at same
      cases same
  have installed : ∀ event, event ∈ (TranscriptEventLog.empty.hydrate
      (reconcileTranscriptContextEntries dateParse sessionId entries)).forSession sessionId ↔
      event ∈ keepFirst TranscriptEvent.identity []
        (reconcileTranscriptContextEntries dateParse sessionId entries) ∧
      event.sessionId = sessionId := by
    intro event
    rw [TranscriptEventLog.forSession, events_hydrate, List.mem_filter, decide_eq_true_iff]
    rfl
  have logged := (installed (fallbackUserEvent sessionId message)).mpr
    ⟨mem_keepFirst_of_unique _ output alone, rfl⟩
  have given : ∀ event, event ∈ (TranscriptEventLog.empty.hydrate
      (reconcileTranscriptContextEntries dateParse sessionId entries)).forSession sessionId →
      event ∈ reconcileTranscriptContextEntries dateParse sessionId entries :=
    fun event mem => mem_of_mem_keepFirst ((installed event).mp mem).1
  have replayed := userInput_of_unique logged rfl rfl
    (fun event mem => alone event (given event mem)) (fun event mem => only event (given event mem))
  rw [Replayed]
  rwa [wireImages_nonempty] at replayed

/-! ## Nothing is lost or duplicated -/

/-- The durable part of the output is the list of the decoded events, the first of each event
id, in the order of their entries. -/
structure KeepsDurables (dateParse : String → Option Int) (sessionId : String)
    (entries : List SdkTranscriptContextEntry) : Prop where
  part : (reconcileByEntry dateParse sessionId entries).filter (fun placed =>
    (valueAt (decodedByIndex sessionId entries) placed.1).isSome) = decodedByIndex sessionId entries
  once : ((decodedByIndex sessionId entries).map fun durable => durable.2.eventId).Nodup
  ordered : (decodedByIndex sessionId entries).Pairwise fun a b => a.1 < b.1
  decoded : ∀ index event, (index, event) ∈ decodedByIndex sessionId entries →
    ∃ entry decoded, entries[index]? = some entry ∧
      decodeDurableTranscriptEntry entry = .decoded decoded ∧
        event = { decoded with sessionId := sessionId }
  every : ∀ (index : Nat) entry decoded, entries[index]? = some entry →
    decodeDurableTranscriptEntry entry = .decoded decoded → ∃ first event, first ≤ index ∧
      (first, event) ∈ decodedByIndex sessionId entries ∧ event.eventId = decoded.eventId

/-- A durable user fact, the first of its client message id, claims at most one fallback user
event, an earlier one of the same text and images, and the claimed ones are left out. -/
structure ClaimsOneEach (dateParse : String → Option Int) (sessionId : String)
    (entries : List SdkTranscriptContextEntry) : Prop where
  ids : ((userClaims sessionId entries).map UserClaim.clientMessageId).Nodup
  indexes : ((userClaims sessionId entries).map UserClaim.fallbackIndex).Nodup
  content : ∀ claim ∈ userClaims sessionId entries, claim.fallbackIndex < claim.durableIndex ∧
    ∃ durable text images message, (claim.durableIndex, durable) ∈ decodedByIndex sessionId entries ∧
      durable.fact.userMessage? = some (claim.clientMessageId, text, images) ∧
        IsUserMessage entries claim.fallbackIndex message ∧
          text = stringifyContent message.content ∧
            images.getD [] = imagesFromContent message.content
  kept : ∀ index message, IsUserMessage entries index message →
    ((index, fallbackUserEvent sessionId message) ∈ reconcileByEntry dateParse sessionId entries ↔
      ∀ claim ∈ userClaims sessionId entries, claim.fallbackIndex ≠ index)

/-- The durable events are kept, once each and in their order. -/
theorem keepsDurables (dateParse : String → Option Int) (sessionId : String)
    (entries : List SdkTranscriptContextEntry) : KeepsDurables dateParse sessionId entries where
  part := durable_part dateParse sessionId entries
  once := nodup_keepFirst _ _
  ordered := pairwise_decodedByIndex sessionId entries
  decoded _ _ mem := mem_decodedByIndex mem
  every _ _ _ here is := exists_decoded_first sessionId here is

theorem not_mem_claimed_iff : index ∉ claimedFallbackUserIndexes sessionId entries ↔
    ∀ claim ∈ userClaims sessionId entries, claim.fallbackIndex ≠ index := by
  simp [claimedFallbackUserIndexes]

/-- The claims are as they should be, and decide which messages are left out. -/
theorem claimsOneEach (dateParse : String → Option Int) (sessionId : String)
    (entries : List SdkTranscriptContextEntry) : ClaimsOneEach dateParse sessionId entries := by
  have claims := claims_bindDurableUserClaims (indexPreDurableContextEvents sessionId entries)
    (decodedByIndex sessionId entries) [] []
  refine ⟨claims.ids, claims.indexes, fun claim mem => ?_, fun index message user => ?_⟩
  · obtain ⟨less, durable, text, images, decoded, is, event, fallback, signed⟩ :=
      claims.justified claim mem
    obtain ⟨message, user, same⟩ := user_of_signature fallback signed
    obtain ⟨rfl, pictures⟩ := Prod.mk.inj same
    exact ⟨less, durable, _, images, message, decoded, is, user, rfl, pictures⟩
  · rw [fallbackUserEvent_kept_iff user, not_mem_claimed_iff]

/-- Reconciliation keeps the durable events, each fact claims at most one message, and an
unclaimed message is replayed unless a durable fact has its fallback id or its event id. -/
theorem reconcile_conserves (dateParse : String → Option Int) (sessionId : String)
    (entries : List SdkTranscriptContextEntry) :
    KeepsDurables dateParse sessionId entries ∧ ClaimsOneEach dateParse sessionId entries ∧
      ((∀ i j message message', IsUserMessage entries i message →
          IsUserMessage entries j message' → message.ts = message'.ts → i = j) →
        ∀ index message, IsUserMessage entries index message →
          (∀ claim ∈ userClaims sessionId entries, claim.fallbackIndex ≠ index) →
          (∀ durable ∈ decodedByIndex sessionId entries,
            durable.2.fact.userMessage?.map Prod.fst ≠ some (syncId message.ts)) →
          (∀ durable ∈ decodedByIndex sessionId entries,
            durable.2.eventId ≠ (fallbackUserEvent sessionId message).eventId) →
          Replayed dateParse sessionId entries message) := by
  refine ⟨keepsDurables dateParse sessionId entries, claimsOneEach dateParse sessionId entries, ?_⟩
  intro distinct index message user unclaimed clientIds eventIds
  exact replayed_of_unclaimed dateParse distinct user (not_mem_claimed_iff.mpr unclaimed)
    clientIds eventIds

/-- A message of the user with a text and a time. -/
def userMessageAt (text : String) (ts : Int) : SdkTranscriptMessage where
  role := "user"
  content := .text text
  summary := none
  timestamp := some ts
  toolCallId := none
  isError := false
  usage := none
  tokensBefore := none

/-- Two messages, and a durable fact of the second. -/
def claimedEntries : List SdkTranscriptContextEntry :=
  [.message (some (userMessageAt "first" 5)), .message (some (userMessageAt "second" 6)),
    .custom (some transcriptEventCustomType) (some (.object [
      ("kind", .string "user_confirmed"), ("eventId", .string "e1"),
      ("sessionId", .string "s1"), ("ts", .number 7 0), ("clientMessageId", .string "app-1"),
      ("text", .string "second")]))]

/-- The messages of the user have their own times. -/
theorem userMessage_claimed {i : Nat} {message : SdkTranscriptMessage}
    (user : IsUserMessage claimedEntries i message) :
    i = 0 ∧ message.ts = 5 ∨ i = 1 ∧ message.ts = 6 := by
  match i with
  | 0 =>
    obtain rfl : _ = message := by simpa [claimedEntries] using user.1
    exact Or.inl ⟨rfl, rfl⟩
  | 1 =>
    obtain rfl : _ = message := by simpa [claimedEntries] using user.1
    exact Or.inr ⟨rfl, rfl⟩
  | 2 => cases user.1
  | i + 3 => cases user.1

/-- The second message is claimed, and the first is replayed. -/
theorem reconcile_conserves_claimed :
    (userClaims "s1" claimedEntries).map UserClaim.fallbackIndex = [1] ∧
      Replayed (fun _ => none) "s1" claimedEntries (userMessageAt "first" 5) := by
  have claims : (userClaims "s1" claimedEntries).map UserClaim.fallbackIndex = [1] := by
    decide +kernel
  have durables : (decodedByIndex "s1" claimedEntries).all (fun durable =>
      decide (durable.2.fact.userMessage?.map Prod.fst ≠ some (syncId 5) ∧
        durable.2.eventId ≠ (fallbackUserEvent "s1" (userMessageAt "first" 5)).eventId)) = true := by
    decide +kernel
  have others := fun durable mem => of_decide_eq_true (List.all_eq_true.mp durables durable mem)
  refine ⟨claims, (reconcile_conserves (fun _ => none) "s1" claimedEntries).2.2 ?_ 0 _ ⟨rfl, rfl⟩
    ?_ (fun durable mem => (others durable mem).1) fun durable mem => (others durable mem).2⟩
  · intro i j message message' user user' same
    rcases userMessage_claimed user with ⟨rfl, at_⟩ | ⟨rfl, at_⟩ <;>
      rcases userMessage_claimed user' with ⟨rfl, at'⟩ | ⟨rfl, at'⟩ <;>
      first | rfl | exact absurd (at_.symm.trans (same.trans at')) (by decide)
  · rintro claim mem unclaimed
    have here := List.mem_map_of_mem (f := UserClaim.fallbackIndex) mem
    rw [claims, unclaimed] at here
    exact absurd here (by decide)

/-- A valid durable fact that carries the event id of another message, which follows it. -/
def shadowedEntries : List SdkTranscriptContextEntry :=
  [.custom (some transcriptEventCustomType) (some (.object [
      ("kind", .string "user_confirmed"), ("eventId", .string "server:s1:user_confirmed:sync_5"),
      ("sessionId", .string "s1"), ("ts", .number 1 0), ("clientMessageId", .string "app-1"),
      ("text", .string "first")])),
    .message (some (userMessageAt "second" 5))]

/-- The text of a user message in the history. -/
def SessionHistoryEvent.userText? : SessionHistoryEvent → Option String
  | .userInput _ _ text _ _ => some text
  | _ => none

/-- The only message of the user. -/
theorem userMessage_shadowed {i : Nat} (user : IsUserMessage shadowedEntries i message) :
    i = 1 ∧ message.content = .text "second" := by
  match i with
  | 0 => cases user.1
  | 1 =>
    obtain rfl : _ = message := by simpa [shadowedEntries] using user.1
    exact ⟨rfl, rfl⟩
  | i + 2 => cases user.1

/-- The text of a message of the user in the history. -/
theorem userText_second {ts : Int} {id : String} {images : Option (List WireImage)} :
    (SessionHistoryEvent.userInput ts id (stringifyContent (.text "second")) images none).userText? =
      some "second" := rfl

/-- The history of the entries has the first message only. -/
theorem replayed_shadowed : (transcriptEventsToSessionHistory ((dedupeTranscriptEvents
      ((TranscriptEventLog.empty.hydrate (reconcileTranscriptContextEntries (fun _ => none) "s1"
        shadowedEntries)).forSession "s1")).filter fun event =>
      event.sessionId = "s1")).filterMap SessionHistoryEvent.userText? = ["first"] := by
  decide +kernel

/-- The log takes the fallback event for a repetition of the durable fact. -/
theorem exists_message_shadowed : ∃ entries, ∃ message : SdkTranscriptMessage,
    (∀ i j message message', IsUserMessage entries i message →
      IsUserMessage entries j message' → message.ts = message'.ts → i = j) ∧
    IsUserMessage entries 1 message ∧
    (∀ claim ∈ userClaims "s1" entries, claim.fallbackIndex ≠ 1) ∧
    (∀ durable ∈ decodedByIndex "s1" entries,
      durable.2.fact.userMessage?.map Prod.fst ≠ some (syncId message.ts)) ∧
    ¬ Replayed (fun _ => none) "s1" entries message := by
  have claims : (userClaims "s1" shadowedEntries).all
      (fun claim => decide (claim.fallbackIndex ≠ 1)) = true := by decide +kernel
  have ids : (decodedByIndex "s1" shadowedEntries).all (fun durable =>
      decide (durable.2.fact.userMessage?.map Prod.fst ≠ some (syncId 5))) = true := by
    decide +kernel
  refine ⟨shadowedEntries, _, ?_, ⟨rfl, rfl⟩, ?_, ?_, ?_⟩
  · intro i j message message' user user' _
    rw [(userMessage_shadowed user).1, (userMessage_shadowed user').1]
  · exact fun claim mem => of_decide_eq_true (List.all_eq_true.mp claims claim mem)
  · exact fun durable mem => of_decide_eq_true (List.all_eq_true.mp ids durable mem)
  · intro replayed
    obtain ⟨bound, replayed⟩ := replayed
    have shown := events_subset_history (replayed bound (le_refl bound))
    have texts := List.mem_filterMap.mpr ⟨_, shown, userText_second⟩
    rw [replayed_shadowed] at texts
    exact absurd texts (by decide)

end OutpostPi.Session
