import OutpostPi.Session.TranscriptReconcile

/-!
# The history of a session and its growth

The history depends on the events of its session, the first of each identity. Each key is shown
once, by the first event that has an entry for it. A further event adds its own item at the end,
except that the first result of a call also shows its request to the agent network, which has no
entry before: the request then stands at the position of the first request of that call, and what
another request of the call showed before gives way to it. `session_history_laws` puts this
together; `request_hidden` shows the two cases in which a history is not just its events in
order.
-/

set_option autoImplicit false

namespace OutpostPi.Session

open OutpostPi.Lib

/-! ## The unbounded history -/

/-- The events of a session, the first of each identity. -/
def sessionEvents (sessionId : String) (events : List TranscriptEvent) : List TranscriptEvent :=
  (dedupeTranscriptEvents events).filter fun event => event.sessionId = sessionId

/-- The history without a limit. -/
def sessionHistory (sessionId : String) (events : List TranscriptEvent) :
    List SessionHistoryEvent :=
  transcriptEventsToSessionHistory (sessionEvents sessionId events)

/-- The entries of the events, the first of each key, where these calls have a result. -/
def shownEntries (finished : List String) (events : List TranscriptEvent) :
    List (HistoryKey × SessionHistoryEvent) :=
  keepFirst Prod.fst [] (events.filterMap (historyEntry finished))

/-- The event is a request of the call. -/
def TranscriptEvent.isRequestOf (toolCallId : String) (event : TranscriptEvent) : Bool :=
  match event.fact with
  | .toolRequested other _ _ => other = toolCallId
  | _ => false

/-- The event is a request of the call to the agent network. -/
def TranscriptEvent.isNetworkRequestOf (toolCallId : String) (event : TranscriptEvent) : Bool :=
  match event.fact with
  | .toolRequested other tool _ => other = toolCallId && tool = "agent-network"
  | _ => false

/-- The call of which an event is the result. -/
def TranscriptEvent.resultOf? (event : TranscriptEvent) : Option String :=
  match event.fact with
  | .toolFinished toolCallId _ _ => some toolCallId
  | _ => none

/-- The item is a request of the call. -/
def SessionHistoryEvent.isRequestOf (toolCallId : String) : SessionHistoryEvent → Bool
  | .toolRequest _ other _ _ => other = toolCallId
  | _ => false

/-! ## The laws -/

/-- Each key is shown once, by the first event of the session that has an entry for it. -/
structure ShowsFirst (events : List TranscriptEvent) (history : List SessionHistoryEvent)
    (shown : List (HistoryKey × SessionHistoryEvent)) : Prop where
  items : history = shown.map Prod.snd
  once : (shown.map Prod.fst).Nodup
  ordered : shown.Sublist (events.filterMap (historyEntry (finishedToolIds events)))
  first : ∀ front event back entry, events = front ++ event :: back →
    historyEntry (finishedToolIds events) event = some entry →
      (∀ earlier ∈ front, ∀ other, historyEntry (finishedToolIds events) earlier = some other →
        other.1 ≠ entry.1) → entry ∈ shown

/-- The last items of a history, as many as the limit admits. -/
structure LastItems (history : List SessionHistoryEvent) (limit : Int)
    (projection : SessionHistoryProjection) : Prop where
  suffix : projection.events <:+ history
  count : projection.events.length = min limit.toNat history.length
  cut : projection.truncated = true ↔ projection.events.length < history.length

/-- The event is the first result of a call that has a request to the agent network. -/
def Reveals (events : List TranscriptEvent) (event : TranscriptEvent) (toolCallId : String) :
    Prop :=
  event.resultOf? = some toolCallId ∧ toolCallId ∉ finishedToolIds events ∧
    ∃ request ∈ events, request.isNetworkRequestOf toolCallId = true

/-- What a further event makes of a history. -/
structure Grows (events : List TranscriptEvent) (event : TranscriptEvent)
    (before after : List SessionHistoryEvent) : Prop where
  /-- An event that reveals nothing adds at most its own item. -/
  plain : (∀ toolCallId, ¬ Reveals events event toolCallId) →
    ∃ own, after = before ++ own ∧ own.length ≤ 1 ∧
      own.Sublist ((historyEntry (finishedToolIds (events ++ [event])) event).toList.map Prod.snd)
  /-- Otherwise its item follows, and the first request of the call is shown in its place, behind
  what the events before it show. What other requests of the call have shown gives way. -/
  revealed : ∀ toolCallId, Reveals events event toolCallId →
    ∃ front request back early late result, events = front ++ request :: back ∧
      request.isRequestOf toolCallId = true ∧
      (∀ other ∈ front, other.isRequestOf toolCallId = false) ∧
      early = (shownEntries (finishedToolIds events) front).map Prod.snd ∧
      (historyEntry [toolCallId] event).map Prod.snd = some result ∧
      (∃ shown, (historyEntry [toolCallId] request).map Prod.snd = some shown ∧
        after = early ++ shown :: late ++ [result]) ∧
      before.filter (fun item => !item.isRequestOf toolCallId) = early ++ late ∧
      ((∀ other ∈ events, other.isRequestOf toolCallId = true →
        other.isNetworkRequestOf toolCallId = true) → before = early ++ late)

/-- What the projection of a session does for every list of events and every limit. -/
structure SessionHistoryLaws (sessionId : String) : Prop where
  isolated : ∀ (events others : List TranscriptEvent) (limit : Int),
    (events.filter fun event => event.sessionId = sessionId) =
      (others.filter fun event => event.sessionId = sessionId) →
    projectSessionHistory sessionId events limit = projectSessionHistory sessionId others limit
  insensitive : ∀ (front middle back : List TranscriptEvent) (event again : TranscriptEvent)
    (limit : Int), again.identity = event.identity →
    projectSessionHistory sessionId (front ++ event :: (middle ++ again :: back)) limit =
      projectSessionHistory sessionId (front ++ event :: (middle ++ back)) limit
  first : ∀ events, ShowsFirst (sessionEvents sessionId events) (sessionHistory sessionId events)
    (shownEntries (finishedToolIds (sessionEvents sessionId events))
      (sessionEvents sessionId events))
  limited : ∀ events limit, LastItems (sessionHistory sessionId events) limit
    (projectSessionHistory sessionId events limit)
  growing : ∀ (events : List TranscriptEvent) (event : TranscriptEvent),
    event.sessionId = sessionId → event.identity ∉ events.map TranscriptEvent.identity →
    Grows (sessionEvents sessionId events) event (sessionHistory sessionId events)
      (sessionHistory sessionId (events ++ [event]))

/-! ## Isolation and repetitions -/

variable {sessionId : String}

theorem sessionEvents_eq (sessionId : String) (events : List TranscriptEvent) :
    sessionEvents sessionId events = keepFirst TranscriptEvent.identity []
      (events.filter fun event => event.sessionId = sessionId) := by
  rw [sessionEvents, dedupeTranscriptEvents]
  exact @filter_keepFirst _ _ _ TranscriptEvent.identity
    (fun identity => decide (identity.1 = sessionId)) [] events

variable {events : List TranscriptEvent}

theorem projectSessionHistory_congr {others : List TranscriptEvent}
    (same : sessionEvents sessionId events = sessionEvents sessionId others) (limit : Int) :
    projectSessionHistory sessionId events limit =
      projectSessionHistory sessionId others limit := by
  rw [sessionEvents, sessionEvents] at same
  rw [projectSessionHistory, projectSessionHistory, same]

variable {front : List TranscriptEvent} {event : TranscriptEvent}

theorem dedupe_repeated {middle back : List TranscriptEvent} {again : TranscriptEvent}
    (same : again.identity = event.identity) :
    dedupeTranscriptEvents (front ++ event :: (middle ++ again :: back)) =
      dedupeTranscriptEvents (front ++ event :: (middle ++ back)) := by
  have repeated : again.identity ∈ (front ++ event :: middle).map TranscriptEvent.identity := by
    rw [same]
    exact List.mem_map_of_mem (by simp)
  have whole := keepFirst_of_repeated repeated [] back
  simpa [dedupeTranscriptEvents] using whole

/-! ## Items and the limit -/

theorem transcriptEventsToSessionHistory_eq (events : List TranscriptEvent) :
    transcriptEventsToSessionHistory events =
      (shownEntries (finishedToolIds events) events).map Prod.snd := rfl

theorem showsFirst (events : List TranscriptEvent) :
    ShowsFirst events (transcriptEventsToSessionHistory events)
      (shownEntries (finishedToolIds events) events) where
  items := rfl
  once := nodup_keepFirst [] _
  ordered := keepFirst_sublist [] _
  first := by
    rintro front event back entry split shows earlier
    have entries : events.filterMap (historyEntry (finishedToolIds events)) =
        front.filterMap (historyEntry (finishedToolIds events)) ++
          entry :: back.filterMap (historyEntry (finishedToolIds events)) := by
      generalize finishedToolIds events = finished at shows
      rw [split, List.filterMap_append, List.filterMap_cons_some shows]
    have fresh : entry.1 ∉ (keepFirst Prod.fst []
        (front.filterMap (historyEntry (finishedToolIds events)))).map Prod.fst ++ [] := by
      rw [mem_keys_keepFirst, List.append_nil]
      intro mem
      obtain ⟨other, here, same⟩ := List.mem_map.mp mem
      obtain ⟨source, member, made⟩ := List.mem_filterMap.mp here
      exact earlier source member other made same
    rw [shownEntries, entries, keepFirst_append, keepFirst_cons_of_new fresh]
    exact List.mem_append_right _ List.mem_cons_self

theorem lastItems (sessionId : String) (events : List TranscriptEvent) (limit : Int) :
    LastItems (sessionHistory sessionId events) limit
      (projectSessionHistory sessionId events limit) := by
  have projected : projectSessionHistory sessionId events limit =
      { events := if 0 < (max 0 limit).toNat then (sessionHistory sessionId events).drop
          ((sessionHistory sessionId events).length - (max 0 limit).toNat) else []
        truncated := decide
          ((max 0 limit).toNat < (sessionHistory sessionId events).length) } := rfl
  have bound : (max 0 limit).toNat = limit.toNat := by omega
  rw [projected, bound]
  generalize sessionHistory sessionId events = history
  rcases Nat.eq_zero_or_pos limit.toNat with zero | positive
  · rw [if_neg (by omega)]
    exact ⟨List.nil_suffix, by simp [zero], by simp [zero]⟩
  · rw [if_pos positive]
    refine ⟨List.drop_suffix _ _, by simp; omega, ?_⟩
    simp only [decide_eq_true_eq, List.length_drop]
    omega

/-! ## A further event -/

theorem sessionEvents_concat (own : event.sessionId = sessionId)
    (fresh : event.identity ∉ events.map TranscriptEvent.identity) :
    sessionEvents sessionId (events ++ [event]) = sessionEvents sessionId events ++ [event] := by
  have unseen : event.identity ∉ (keepFirst TranscriptEvent.identity [] events).map
      TranscriptEvent.identity ++ [] := by
    rw [mem_keys_keepFirst, List.append_nil]
    exact fresh
  rw [sessionEvents, sessionEvents, dedupeTranscriptEvents, keepFirst_append,
    keepFirst_cons_of_new unseen, List.filter_append]
  simp [keepFirst, own, dedupeTranscriptEvents]

theorem finishedToolIds_eq (events : List TranscriptEvent) :
    finishedToolIds events = events.filterMap TranscriptEvent.resultOf? := rfl

theorem finishedToolIds_concat (events : List TranscriptEvent) (event : TranscriptEvent) :
    finishedToolIds (events ++ [event]) = finishedToolIds events ++ event.resultOf?.toList := by
  rw [finishedToolIds_eq, finishedToolIds_eq, List.filterMap_append]
  cases result : event.resultOf? with
  | none => simp [result]
  | some toolCallId => simp [result]

variable {finished : List String}

/-- An entry depends on the results of its own call only, and only for the agent network. -/
theorem historyEntry_congr {finished' : List String}
    (same : ∀ toolCallId, event.isNetworkRequestOf toolCallId = true →
      (toolCallId ∈ finished ↔ toolCallId ∈ finished')) :
    historyEntry finished event = historyEntry finished' event := by
  cases fact : event.fact with
  | toolRequested toolCallId tool args =>
    simp only [historyEntry, fact]
    by_cases network : tool = "agent-network"
    · have result := same toolCallId (by simp [TranscriptEvent.isNetworkRequestOf, fact, network])
      simp [network, result]
    · simp [network]
  | _ => simp [historyEntry, fact]

variable {toolCallId : String}

/-- A request of a call that has a result has an entry under its call. -/
theorem historyEntry_request (request : event.isRequestOf toolCallId = true) :
    ∃ shown, ∀ finished', toolCallId ∈ finished' →
      historyEntry finished' event = some (.toolRequest toolCallId, shown) := by
  cases fact : event.fact with
  | toolRequested other tool args =>
    obtain rfl : other = toolCallId := by
      simpa [TranscriptEvent.isRequestOf, fact] using request
    refine ⟨.toolRequest event.ts other tool args, fun finished' mem => ?_⟩
    simp [historyEntry, fact, mem]
  | _ => simp [TranscriptEvent.isRequestOf, fact] at request

/-- Only requests of a call have entries under its call. -/
theorem isRequestOf_iff_of_historyEntry {entry : HistoryKey × SessionHistoryEvent}
    (shows : historyEntry finished event = some entry) (toolCallId : String) :
    (entry.1 = .toolRequest toolCallId ↔ event.isRequestOf toolCallId = true) ∧
      (entry.2.isRequestOf toolCallId = true ↔ event.isRequestOf toolCallId = true) := by
  cases fact : event.fact with
  | toolRequested other tool args =>
    simp only [historyEntry, fact] at shows
    split at shows
    · cases shows
    · cases shows
      simp [TranscriptEvent.isRequestOf, SessionHistoryEvent.isRequestOf, fact]
  | _ =>
    simp only [historyEntry, fact, reduceCtorEq, Option.some.injEq] at shows <;>
    · subst shows
      simp [TranscriptEvent.isRequestOf, SessionHistoryEvent.isRequestOf, fact]

/-- Only a result has an entry under the result of a call. -/
theorem resultOf_of_historyEntry {entry : HistoryKey × SessionHistoryEvent}
    (shows : historyEntry finished event = some entry) (key : entry.1 = .toolFinish toolCallId) :
    event.resultOf? = some toolCallId := by
  cases fact : event.fact with
  | toolRequested other tool args =>
    simp only [historyEntry, fact] at shows
    split at shows
    · cases shows
    · cases shows
      cases key
  | _ =>
    simp only [historyEntry, fact, reduceCtorEq, Option.some.injEq] at shows <;>
    · subst shows
      simp_all [TranscriptEvent.resultOf?]

theorem historyEntry_result (result : event.resultOf? = some toolCallId) :
    ∃ item, ∀ finished, historyEntry finished event = some (.toolFinish toolCallId, item) := by
  cases fact : event.fact with
  | toolFinished other value error =>
    obtain rfl : other = toolCallId := by simpa [TranscriptEvent.resultOf?, fact] using result
    exact ⟨_, fun _ => by rw [historyEntry, fact]⟩
  | _ => simp [TranscriptEvent.resultOf?, fact] at result

/-! ## Growth -/

theorem grows_plain (quiet : ∀ toolCallId, ¬ Reveals events event toolCallId) :
    ∃ own, transcriptEventsToSessionHistory (events ++ [event]) =
        transcriptEventsToSessionHistory events ++ own ∧ own.length ≤ 1 ∧
      own.Sublist
        ((historyEntry (finishedToolIds (events ++ [event])) event).toList.map Prod.snd) := by
  have same : events.filterMap (historyEntry (finishedToolIds (events ++ [event]))) =
      events.filterMap (historyEntry (finishedToolIds events)) := by
    apply List.filterMap_congr
    intro request mem
    apply historyEntry_congr
    intro toolCallId network
    rw [finishedToolIds_concat, List.mem_append, or_iff_left_iff_imp]
    intro new
    by_contra unfinished
    exact quiet toolCallId ⟨Option.mem_toList.mp new, unfinished, request, mem, network⟩
  have own : ([event].filterMap (historyEntry (finishedToolIds (events ++ [event])))) =
      (historyEntry (finishedToolIds (events ++ [event])) event).toList := by
    cases shows : historyEntry (finishedToolIds (events ++ [event])) event with
    | none => simp [shows]
    | some entry => simp [shows]
  have kept := @keepFirst_sublist _ _ _ Prod.fst
    ((shownEntries (finishedToolIds events) events).map Prod.fst ++ [])
    (historyEntry (finishedToolIds (events ++ [event])) event).toList
  refine ⟨_, ?_, ?_, kept.map Prod.snd⟩
  · rw [transcriptEventsToSessionHistory_eq, shownEntries, List.filterMap_append, same, own,
      keepFirst_append, List.map_append]
    rfl
  · rw [List.length_map]
    exact kept.length_le.trans (by cases historyEntry _ event <;> simp)

theorem isRequestOf_of_isNetworkRequestOf (network : event.isNetworkRequestOf toolCallId = true) :
    event.isRequestOf toolCallId = true := by
  cases fact : event.fact with
  | toolRequested other tool args =>
    simp only [TranscriptEvent.isNetworkRequestOf, fact, Bool.and_eq_true] at network
    simpa only [TranscriptEvent.isRequestOf, fact] using network.1
  | _ => simp [TranscriptEvent.isNetworkRequestOf, fact] at network

/-- The results of a call decide about the entries of its own requests only. -/
theorem filter_entries_congr {finished' : List String}
    (same : ∀ other, other ≠ toolCallId → (other ∈ finished ↔ other ∈ finished'))
    (events : List TranscriptEvent) :
    (events.filterMap (historyEntry finished)).filter
        (fun entry => decide (entry.1 ≠ .toolRequest toolCallId)) =
      (events.filterMap (historyEntry finished')).filter
        (fun entry => decide (entry.1 ≠ .toolRequest toolCallId)) := by
  rw [List.filter_filterMap, List.filter_filterMap]
  apply List.filterMap_congr
  intro event _
  cases request : event.isRequestOf toolCallId with
  | true =>
    have dropped : ∀ ids, (historyEntry ids event).filter
        (fun entry => decide (entry.1 ≠ .toolRequest toolCallId)) = none := by
      intro ids
      rw [Option.filter_eq_none_iff]
      intro entry shows
      simpa using ((isRequestOf_iff_of_historyEntry shows toolCallId).1).mpr request
    rw [dropped, dropped]
  | false =>
    congr 1
    apply historyEntry_congr
    intro other network
    apply same
    rintro rfl
    rw [isRequestOf_of_isNetworkRequestOf network] at request
    cases request

/-- A list with no request of the call has no entry under it. -/
theorem filter_entries_eq_self
    (none : ∀ event ∈ events, ∀ entry, historyEntry finished event = some entry →
      event.isRequestOf toolCallId = false) :
    (events.filterMap (historyEntry finished)).filter
        (fun entry => decide (entry.1 ≠ .toolRequest toolCallId)) =
      events.filterMap (historyEntry finished) := by
  apply List.filter_eq_self.mpr
  intro entry mem
  obtain ⟨event, here, shows⟩ := List.mem_filterMap.mp mem
  apply decide_eq_true
  intro key
  have request := ((isRequestOf_iff_of_historyEntry shows toolCallId).1).mp key
  rw [none event here entry shows] at request
  cases request

/-- The items of a history that are no request of the call. -/
theorem filter_items (finished : List String) (toolCallId : String)
    (events : List TranscriptEvent) :
    ((shownEntries finished events).map Prod.snd).filter
        (fun item => !item.isRequestOf toolCallId) =
      (keepFirst Prod.fst [] ((events.filterMap (historyEntry finished)).filter
        fun entry => decide (entry.1 ≠ .toolRequest toolCallId))).map Prod.snd := by
  rw [List.filter_map, shownEntries,
    ← filter_keepFirst (fun key : HistoryKey => decide (key ≠ .toolRequest toolCallId))]
  congr 1
  apply List.filter_congr
  intro entry kept
  obtain ⟨event, here, shows⟩ := List.mem_filterMap.mp (mem_of_mem_keepFirst kept)
  obtain ⟨key, item⟩ := isRequestOf_iff_of_historyEntry shows toolCallId
  rw [Function.comp_apply, Bool.eq_iff_iff, Bool.not_eq_true', ← Bool.not_eq_true, item, ← key,
    decide_eq_true_iff]

/-- The entries of events that precede every request of the call. -/
theorem entries_before {ids : List String}
    (earlier : ∀ other ∈ front, other.isRequestOf toolCallId = false) :
    front.filterMap (historyEntry (ids ++ [toolCallId])) = front.filterMap (historyEntry ids) := by
  apply List.filterMap_congr
  intro other mem
  apply historyEntry_congr
  intro call asked
  rw [List.mem_append, or_iff_left_iff_imp, List.mem_singleton]
  rintro rfl
  have request := isRequestOf_of_isNetworkRequestOf asked
  rw [earlier other mem] at request
  cases request

/-- The history after the first result of a call, at the first request of the call. -/
theorem shownEntries_result {ids : List String} {back : List TranscriptEvent}
    {request : TranscriptEvent} {shown result : SessionHistoryEvent}
    (unfinished : toolCallId ∉ ids)
    (earlier : ∀ other ∈ front, other.isRequestOf toolCallId = false)
    (results : (front ++ request :: back).filterMap TranscriptEvent.resultOf? = ids)
    (shows : historyEntry (ids ++ [toolCallId]) request = some (.toolRequest toolCallId, shown))
    (ends : historyEntry (ids ++ [toolCallId]) event = some (.toolFinish toolCallId, result)) :
    shownEntries (ids ++ [toolCallId]) ((front ++ request :: back) ++ [event]) =
      shownEntries ids front ++ (.toolRequest toolCallId, shown) ::
        (keepFirst Prod.fst ((shownEntries ids front).map Prod.fst ++ [])
          ((back.filterMap (historyEntry (ids ++ [toolCallId]))).filter
            fun entry => decide (entry.1 ≠ .toolRequest toolCallId))) ++
        [(.toolFinish toolCallId, result)] := by
  -- the request is the first of its call
  have unasked : HistoryKey.toolRequest toolCallId ∉
      (keepFirst Prod.fst [] (front.filterMap (historyEntry ids))).map Prod.fst ++ [] := by
    rw [mem_keys_keepFirst, List.append_nil]
    intro mem
    obtain ⟨entry, here, key⟩ := List.mem_map.mp mem
    obtain ⟨other, member, made⟩ := List.mem_filterMap.mp here
    have request := ((isRequestOf_iff_of_historyEntry made toolCallId).1).mp key
    rw [earlier other member] at request
    cases request
  -- and the call has no result so far
  have unended : HistoryKey.toolFinish toolCallId ∉ (keepFirst Prod.fst []
      ((front ++ request :: back).filterMap (historyEntry (ids ++ [toolCallId])))).map Prod.fst ++
        [] := by
    rw [mem_keys_keepFirst, List.append_nil]
    intro mem
    obtain ⟨entry, here, key⟩ := List.mem_map.mp mem
    obtain ⟨other, member, made⟩ := List.mem_filterMap.mp here
    apply unfinished
    rw [← results]
    exact List.mem_filterMap.mpr ⟨other, member, resultOf_of_historyEntry made key⟩
  have final : [event].filterMap (historyEntry (ids ++ [toolCallId])) =
      [(.toolFinish toolCallId, result)] := by
    rw [List.filterMap_cons_some ends, List.filterMap_nil]
  have last (rest) := @keepFirst_cons_of_new _ _ _ Prod.fst
    (HistoryKey.toolFinish toolCallId, result) _ unended rest
  have first (rest) := @keepFirst_cons_of_new _ _ _ Prod.fst
    (HistoryKey.toolRequest toolCallId, shown) _ unasked rest
  rw [shownEntries, List.filterMap_append, final, keepFirst_append, last,
    List.filterMap_append, List.filterMap_cons_some shows, entries_before earlier,
    keepFirst_append, first, keepFirst_cons_seen]
  rfl

theorem grows_revealed (reveals : Reveals events event toolCallId) :
    ∃ front request back early late result, events = front ++ request :: back ∧
      request.isRequestOf toolCallId = true ∧
      (∀ other ∈ front, other.isRequestOf toolCallId = false) ∧
      early = (shownEntries (finishedToolIds events) front).map Prod.snd ∧
      (historyEntry [toolCallId] event).map Prod.snd = some result ∧
      (∃ shown, (historyEntry [toolCallId] request).map Prod.snd = some shown ∧
        transcriptEventsToSessionHistory (events ++ [event]) =
          early ++ shown :: late ++ [result]) ∧
      (transcriptEventsToSessionHistory events).filter
        (fun item => !item.isRequestOf toolCallId) = early ++ late ∧
      ((∀ other ∈ events, other.isRequestOf toolCallId = true →
        other.isNetworkRequestOf toolCallId = true) →
          transcriptEventsToSessionHistory events = early ++ late) := by
  obtain ⟨ends, unfinished, network, member, revealed⟩ := reveals
  have some_request : (events.find? (TranscriptEvent.isRequestOf toolCallId)).isSome = true :=
    List.find?_isSome.mpr ⟨network, member, isRequestOf_of_isNetworkRequestOf revealed⟩
  obtain ⟨request, found⟩ := Option.isSome_iff_exists.mp some_request
  obtain ⟨asks, front, back, split, earlier⟩ := List.find?_eq_some_iff_append.mp found
  replace earlier : ∀ other ∈ front, other.isRequestOf toolCallId = false := by
    intro other mem
    simpa using earlier other mem
  obtain ⟨shown, shows⟩ := historyEntry_request asks
  obtain ⟨result, results⟩ := historyEntry_result ends
  have later : finishedToolIds (events ++ [event]) = finishedToolIds events ++ [toolCallId] := by
    rw [finishedToolIds_concat, ends]
    rfl
  have own := finishedToolIds_eq events
  rw [transcriptEventsToSessionHistory_eq, transcriptEventsToSessionHistory_eq, later]
  generalize finishedToolIds events = ids at *
  subst split
  have here := shows (ids ++ [toolCallId]) (by simp)
  -- outside the call the result changes no entry, and its requests all share one key
  have kept : (keepFirst Prod.fst [] (((front ++ request :: back).filterMap
      (historyEntry ids)).filter fun entry => decide (entry.1 ≠ .toolRequest toolCallId))).map
        Prod.snd = (shownEntries ids front).map Prod.snd ++
          (keepFirst Prod.fst ((shownEntries ids front).map Prod.fst ++ [])
            ((back.filterMap (historyEntry (ids ++ [toolCallId]))).filter
              fun entry => decide (entry.1 ≠ .toolRequest toolCallId))).map Prod.snd := by
    have others : ∀ other, other ≠ toolCallId → (other ∈ ids ↔ other ∈ ids ++ [toolCallId]) := by
      intro other different
      rw [List.mem_append, List.mem_singleton, or_iff_left different]
    rw [filter_entries_congr others, List.filterMap_append, List.filterMap_cons_some here,
      List.filter_append, entries_before earlier,
      filter_entries_eq_self fun other mem _ _ => earlier other mem,
      List.filter_cons_of_neg (by simp), keepFirst_append, List.map_append]
    rfl
  refine ⟨front, request, back, _, _, result, rfl, asks, earlier, rfl, ?_, ⟨shown, ?_, ?_⟩,
    (filter_items _ _ _).trans kept, ?_⟩
  · rw [results]
    rfl
  · rw [shows [toolCallId] (List.mem_singleton_self _)]
    rfl
  · rw [shownEntries_result unfinished earlier own.symm here (results _), List.map_append,
      List.map_append, List.map_cons]
    rfl
  · intro all
    have unasked : ∀ other ∈ front ++ request :: back, ∀ entry,
        historyEntry ids other = some entry → other.isRequestOf toolCallId = false := by
      intro other mem entry visible
      by_contra request
      have network := all other mem (Bool.eq_true_of_not_eq_false request)
      cases fact : other.fact with
      | toolRequested call tool args =>
        simp only [TranscriptEvent.isNetworkRequestOf, fact, Bool.and_eq_true,
          decide_eq_true_eq] at network
        obtain ⟨rfl, rfl⟩ := network
        simp [historyEntry, fact, unfinished] at visible
      | _ => simp [TranscriptEvent.isNetworkRequestOf, fact] at network
    rw [shownEntries, ← filter_entries_eq_self unasked]
    exact kept

/-! ## The laws of a session -/

/-- A request of one call, and the result of the call. -/
private def asked (eventId tool : String) : TranscriptEvent :=
  ⟨eventId, "s", 0, none, .toolRequested "call" tool .null⟩

private def answered : TranscriptEvent :=
  ⟨"r", "s", 1, none, .toolFinished "call" none none⟩

/-- A request of the agent network has no item before its result, and a result that reveals it
takes away the item of another request of the call. -/
theorem request_hidden : ∃ request another result : TranscriptEvent,
    request.isNetworkRequestOf "call" = true ∧ another.isRequestOf "call" = true ∧
      result.resultOf? = some "call" ∧ sessionHistory "s" [request] = [] ∧
      sessionHistory "s" [request, another] = [.toolRequest 0 "call" "bash" .null] ∧
      sessionHistory "s" [request, another, result] =
        [.toolRequest 0 "call" "agent-network" .null, .toolResult 1 "call" none none] :=
  ⟨asked "a" "agent-network", asked "b" "bash", answered, by decide, by decide, by decide,
    by rfl, by rfl, by rfl⟩

theorem session_history_laws (sessionId : String) : SessionHistoryLaws sessionId where
  isolated := by
    intro events others limit same
    apply projectSessionHistory_congr
    rw [sessionEvents_eq, sessionEvents_eq, same]
  insensitive := by
    intro front middle back event again limit same
    apply projectSessionHistory_congr
    rw [sessionEvents, sessionEvents, dedupe_repeated same]
  first := fun events => showsFirst (sessionEvents sessionId events)
  limited := lastItems sessionId
  growing := by
    intro events event own fresh
    rw [sessionHistory, sessionHistory, sessionEvents_concat own fresh]
    exact ⟨grows_plain, fun _ reveals => grows_revealed reveals⟩

end OutpostPi.Session
