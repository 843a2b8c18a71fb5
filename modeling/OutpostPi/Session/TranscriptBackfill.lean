import OutpostPi.Lib.Map
import OutpostPi.Session.TranscriptReconcile

/-!
# The backfill at a session start

At every session start the transcript that is reconciled from the entries of the SDK is installed
in the log of the process. An in-process reload finds the live user facts in that log, and the SDK
may have their messages under the id `sync_<ts>` only. Such a fallback fact is therefore given the
identity of the oldest live fact of its content, each of which is given away once.

The durable facts bypass that step, but they leave their own live facts to be given away. A
fallback fact can take the place of a live one whose durable entry is reconciled too, and its
message is then in the log no more (`message_swallowed`). `backfill_keeps_iff` says when the user
messages are kept; the rest of what the backfill promises holds always.
-/

set_option autoImplicit false

namespace OutpostPi.Session.TranscriptBackfill

open OutpostPi.Lib

/-- What user messages are matched by. -/
abbrev UserContent := String × List WireImage

/-! ## The backfill -/

/-- The ids of a live user fact. -/
structure ExistingUser where
  clientMessageId : String
  eventId : String

/-- The live user facts of each content that are still to be given away, the oldest first. -/
abbrev ExistingUsers := Map UserContent (List ExistingUser)

/-- The content of a confirmed user message, with its ids. -/
def confirmedUser? (event : TranscriptEvent) : Option (UserContent × ExistingUser) :=
  match event.fact with
  | .userConfirmed clientMessageId text images _ =>
    some (transcriptUserContentSignature text images, ⟨clientMessageId, event.eventId⟩)
  | _ => none

namespace ExistingUsers

def get (existing : ExistingUsers) (key : UserContent) : List ExistingUser :=
  (existing.lookup key).getD []

def push (existing : ExistingUsers) (event : TranscriptEvent) : ExistingUsers :=
  match confirmedUser? event with
  | some (key, user) => existing.insert key (existing.get key ++ [user])
  | none => existing

/-- What is left of the claims of a content. The last one takes the content away. -/
def put (existing : ExistingUsers) (key : UserContent) (claims : List ExistingUser) :
    ExistingUsers :=
  if claims.isEmpty then existing.erase key else existing.insert key claims

end ExistingUsers

def indexExistingUserEventsByContent (log : TranscriptEventLog) (sessionId : String) :
    ExistingUsers :=
  (log.forSession sessionId).foldl ExistingUsers.push ∅

/-- The content of a user fact whose id the extension has made up. -/
def fallbackContent? (event : TranscriptEvent) : Option UserContent :=
  match event.fact with
  | .userConfirmed clientMessageId text images _ =>
    if "sync_".toList.isPrefixOf clientMessageId.toList then
      some (transcriptUserContentSignature text images)
    else none
  | _ => none

/-- The event under the ids of a live one. -/
def withIdsOf (event : TranscriptEvent) (user : ExistingUser) : TranscriptEvent :=
  { event with
    eventId := user.eventId
    fact :=
      match event.fact with
      | .userConfirmed _ text images streamingBehavior =>
        .userConfirmed user.clientMessageId text images streamingBehavior
      | fact => fact }

/-- Give the fallback facts the ids of the live facts of their contents. -/
def reuseExistingUsers : ExistingUsers → List TranscriptEvent → List TranscriptEvent
  | _, [] => []
  | existing, event :: rest =>
    match fallbackContent? event with
    | none => event :: reuseExistingUsers existing rest
    | some key =>
      match existing.get key with
      | [] => event :: reuseExistingUsers existing rest
      | user :: claims =>
        withIdsOf event user :: reuseExistingUsers (existing.put key claims) rest

section Backfill

variable (dateParse : String → Option Int) (sessionId : String)
  (entries : List SdkTranscriptContextEntry)

def backfillTranscriptFromSessionManager (log : TranscriptEventLog) : TranscriptEventLog :=
  if entries.isEmpty then log
  else
    let mapped := reconcileTranscriptContextEntries dateParse sessionId entries
    let existingUsers := indexExistingUserEventsByContent log sessionId
    log.hydrate (reuseExistingUsers existingUsers mapped)

end Backfill

/-! ## What a backfill keeps -/

/-- The number of the user facts of a content. -/
def userFacts (events : List TranscriptEvent) (content : UserContent) : Nat :=
  events.countP fun event => decide (userSignature event = some content)

/-- The number of the live facts of a content that can be given away. -/
def claims (log : TranscriptEventLog) (sessionId : String) (content : UserContent) : Nat :=
  (log.forSession sessionId).countP fun event =>
    decide ((confirmedUser? event).map Prod.fst = some content)

def fallbacks (events : List TranscriptEvent) (content : UserContent) : Nat :=
  events.countP fun event => decide (fallbackContent? event = some content)

/-- The events without the first fallback facts of each content, as many as it has claims. -/
def ownIdentities (free : UserContent → Nat) : List TranscriptEvent → List TranscriptEvent
  | [] => []
  | event :: rest =>
    match fallbackContent? event with
    | none => event :: ownIdentities free rest
    | some key =>
      if free key = 0 then event :: ownIdentities free rest
      else ownIdentities (Function.update free key (free key - 1)) rest

/-- The number of the user facts of a content that keep their own identity, though it is that of
an event of the log or of an earlier one that keeps its own too. -/
def knownFacts (log : TranscriptEventLog) (sessionId : String) (events : List TranscriptEvent)
    (content : UserContent) : Nat :=
  userFacts (repeated TranscriptEvent.identity (log.events.map TranscriptEvent.identity)
    (ownIdentities (claims log sessionId) events)) content

section Statements

variable (dateParse : String → Option Int) (sessionId : String)
  (entries : List SdkTranscriptContextEntry) (log : TranscriptEventLog)

/-- No user message is swallowed, the other events are installed, no event of the log changes, and
a second backfill adds nothing. -/
structure BackfillKeeps : Prop where
  conserved : ∀ content,
    userFacts (reconcileTranscriptContextEntries dateParse sessionId entries) content ≤
      userFacts ((backfillTranscriptFromSessionManager dateParse sessionId entries
        log).forSession sessionId) content
  others : ∀ event ∈ reconcileTranscriptContextEntries dateParse sessionId entries,
    fallbackContent? event = none →
      (backfillTranscriptFromSessionManager dateParse sessionId entries log).has
        event.identity = true
  unchanged : log.events <+:
    (backfillTranscriptFromSessionManager dateParse sessionId entries log).events
  idempotent : backfillTranscriptFromSessionManager dateParse sessionId entries
      (backfillTranscriptFromSessionManager dateParse sessionId entries log) =
    backfillTranscriptFromSessionManager dateParse sessionId entries log

/-- The live facts of every content that no fallback fact takes are enough for the reconciled
facts whose own identity is known already. -/
def LiveFactsSuffice : Prop :=
  ∀ content,
    min (claims log sessionId content)
          (fallbacks (reconcileTranscriptContextEntries dateParse sessionId entries) content) +
        knownFacts log sessionId (reconcileTranscriptContextEntries dateParse sessionId entries)
          content ≤
      userFacts (log.forSession sessionId) content

end Statements

/-! ## Claims -/

namespace ExistingUsers

@[simp] theorem get_empty (key : UserContent) : get ∅ key = [] := rfl

theorem get_put (existing : ExistingUsers) (key other : UserContent)
    (claims : List ExistingUser) :
    (existing.put key claims).get other = if other = key then claims else existing.get other := by
  rw [put]
  by_cases same : other = key
  · subst same
    cases claims with
    | nil => simp [get]
    | cons user claims => simp [get]
  · cases claims with
    | nil => simp [get, same, AList.lookup_erase_ne same]
    | cons user claims => simp [get, same, AList.lookup_insert_ne same]

/-- The ids of an event that confirms a message of that content. -/
def claimOn (content : UserContent) (event : TranscriptEvent) : Option ExistingUser :=
  (confirmedUser? event).bind fun user => if user.1 = content then some user.2 else none

theorem get_push (existing : ExistingUsers) (event : TranscriptEvent) (content : UserContent) :
    (existing.push event).get content = existing.get content ++ (claimOn content event).toList := by
  rw [push, claimOn]
  cases confirmedUser? event with
  | none => simp
  | some user =>
    obtain ⟨key, user⟩ := user
    by_cases same : key = content
    · subst same
      simp [get]
    · simp [get, same, AList.lookup_insert_ne (Ne.symm same)]

theorem get_foldl_push (existing : ExistingUsers) (events : List TranscriptEvent)
    (content : UserContent) :
    (events.foldl push existing).get content =
      existing.get content ++ events.filterMap (claimOn content) := by
  induction events generalizing existing with
  | nil => simp
  | cons event rest ih =>
    rw [List.foldl_cons, ih, get_push, List.append_assoc]
    cases made : claimOn content event with
    | none => rw [List.filterMap_cons_none made]; rfl
    | some user => rw [List.filterMap_cons_some made]; rfl

end ExistingUsers

open ExistingUsers

theorem isSome_claimOn (content : UserContent) (event : TranscriptEvent) :
    (claimOn content event).isSome =
      decide ((confirmedUser? event).map Prod.fst = some content) := by
  rw [claimOn]
  cases confirmedUser? event with
  | none => rfl
  | some user =>
    by_cases same : user.1 = content <;> simp [same]

theorem get_index (log : TranscriptEventLog) (sessionId : String) (content : UserContent) :
    (indexExistingUserEventsByContent log sessionId).get content =
      (log.forSession sessionId).filterMap (claimOn content) := by
  rw [indexExistingUserEventsByContent, get_foldl_push]
  rfl

theorem length_get_index (log : TranscriptEventLog) (sessionId : String) (content : UserContent) :
    ((indexExistingUserEventsByContent log sessionId).get content).length =
      claims log sessionId content := by
  rw [get_index, List.length_filterMap_eq_countP, claims]
  simp only [isSome_claimOn]

/-- A claim is on an event of the log. -/
theorem identity_of_mem_index {log : TranscriptEventLog} {sessionId : String}
    {content : UserContent} {user : ExistingUser}
    (mem : user ∈ (indexExistingUserEventsByContent log sessionId).get content) :
    (sessionId, user.eventId) ∈ log.events.map TranscriptEvent.identity := by
  rw [get_index] at mem
  obtain ⟨event, here, made⟩ := List.mem_filterMap.mp mem
  obtain ⟨inLog, own⟩ := List.mem_filter.mp here
  have ids : event.eventId = user.eventId := by
    rw [claimOn, confirmedUser?] at made
    split at made
    · obtain ⟨-, made⟩ : _ ∧ _ := by simpa using made
      rw [← made]
    · cases made
  refine List.mem_map.mpr ⟨event, inLog, ?_⟩
  rw [TranscriptEvent.identity, of_decide_eq_true own, ids]

/-! ## What is installed -/

section Installed

variable {free more : UserContent → Nat}

variable {event : TranscriptEvent}

theorem ownIdentities_cons_of_none (plain : fallbackContent? event = none)
    (rest : List TranscriptEvent) :
    ownIdentities free (event :: rest) = event :: ownIdentities free rest := by
  simp only [ownIdentities, plain]

theorem ownIdentities_cons_of_some {key : UserContent}
    (fallback : fallbackContent? event = some key) (rest : List TranscriptEvent) :
    ownIdentities free (event :: rest) =
      if free key = 0 then event :: ownIdentities free rest
      else ownIdentities (Function.update free key (free key - 1)) rest := by
  simp only [ownIdentities, fallback]

theorem ownIdentities_sublist (free : UserContent → Nat) (events : List TranscriptEvent) :
    (ownIdentities free events).Sublist events := by
  induction events generalizing free with
  | nil => exact List.Sublist.refl []
  | cons event rest ih =>
    cases kind : fallbackContent? event with
    | none =>
      rw [ownIdentities_cons_of_none kind]
      exact (ih free).cons_cons event
    | some key =>
      rw [ownIdentities_cons_of_some kind]
      split
      · exact (ih free).cons_cons event
      · exact (ih _).cons event

/-- With more claims fewer events keep their own identity. -/
theorem ownIdentities_subset (le : ∀ content, free content ≤ more content)
    (events : List TranscriptEvent) :
    ∀ event ∈ ownIdentities more events, event ∈ ownIdentities free events := by
  induction events generalizing free more with
  | nil => exact fun event mem => mem
  | cons first rest ih =>
    intro event mem
    cases kind : fallbackContent? first with
    | none =>
      rw [ownIdentities_cons_of_none kind] at mem ⊢
      rcases List.mem_cons.mp mem with rfl | later
      · exact List.mem_cons_self
      · exact List.mem_cons_of_mem _ (ih le event later)
    | some key =>
      rw [ownIdentities_cons_of_some kind] at mem ⊢
      have less := le key
      by_cases none : more key = 0
      · rw [if_pos none] at mem
        rw [if_pos (by omega)]
        rcases List.mem_cons.mp mem with rfl | later
        · exact List.mem_cons_self
        · exact List.mem_cons_of_mem _ (ih le event later)
      · rw [if_neg none] at mem
        split
        · next out =>
          -- One claim of the content is gone on the one side only.
          apply List.mem_cons_of_mem
          refine ih (fun content => ?_) event mem
          by_cases same : content = key
          · subst same
            rw [out]
            exact Nat.zero_le _
          · rw [Function.update_of_ne same]
            exact le content
        · refine ih (fun content => ?_) event mem
          by_cases same : content = key
          · subst same
            rw [Function.update_self, Function.update_self]
            omega
          · rw [Function.update_of_ne same, Function.update_of_ne same]
            exact le content

theorem mem_ownIdentities_of_none (plain : fallbackContent? event = none)
    {events : List TranscriptEvent} (mem : event ∈ events) (free : UserContent → Nat) :
    event ∈ ownIdentities free events := by
  induction events generalizing free with
  | nil => cases mem
  | cons first rest ih =>
    rcases List.mem_cons.mp mem with rfl | later
    · rw [ownIdentities_cons_of_none plain]
      exact List.mem_cons_self
    · cases kind : fallbackContent? first with
      | none =>
        rw [ownIdentities_cons_of_none kind]
        exact List.mem_cons_of_mem _ (ih later free)
      | some key =>
        rw [ownIdentities_cons_of_some kind]
        split
        · exact List.mem_cons_of_mem _ (ih later free)
        · exact ih later _

/-- A fallback fact is a user fact of its content. -/
theorem userSignature_of_fallback {key : UserContent}
    (fallback : fallbackContent? event = some key) : userSignature event = some key := by
  rw [fallbackContent?] at fallback
  split at fallback
  · next clientMessageId text images steer is =>
    split at fallback
    · rw [userSignature, is]
      exact fallback
    · cases fallback
  · cases fallback

/-- Of the fallback facts of a content as many take a claim as there are claims. -/
theorem userFacts_ownIdentities (free : UserContent → Nat) (events : List TranscriptEvent)
    (content : UserContent) :
    userFacts (ownIdentities free events) content + min (free content) (fallbacks events content) =
      userFacts events content := by
  induction events generalizing free with
  | nil => simp [ownIdentities, userFacts, fallbacks]
  | cons event rest ih =>
    have own := ih free
    rw [userFacts, fallbacks] at own ⊢
    rw [userFacts] at own ⊢
    rw [List.countP_cons, List.countP_cons]
    cases kind : fallbackContent? event with
    | none =>
      rw [ownIdentities_cons_of_none kind, List.countP_cons]
      simp only [reduceCtorEq, decide_false, Bool.false_eq_true, if_false, Nat.add_zero]
      omega
    | some key =>
      have signed := userSignature_of_fallback kind
      rw [ownIdentities_cons_of_some kind, signed]
      simp only [Option.some.injEq]
      by_cases same : key = content
      · subst same
        by_cases out : free key = 0
        · rw [if_pos out, List.countP_cons, signed, out]
          rw [out] at own
          simp only [Nat.zero_min, Nat.add_zero, decide_true, if_true] at own ⊢
          omega
        · have taken := ih (Function.update free key (free key - 1))
          rw [userFacts, fallbacks, userFacts, Function.update_self] at taken
          rw [if_neg out]
          simp only [decide_true, if_true]
          omega
      · simp only [same, decide_false, Bool.false_eq_true, if_false, Nat.add_zero]
        split
        · rw [List.countP_cons, signed]
          simp only [Option.some.injEq, same, decide_false, Bool.false_eq_true, if_false,
            Nat.add_zero]
          exact own
        · have taken := ih (Function.update free key (free key - 1))
          rw [userFacts, fallbacks, userFacts, Function.update_of_ne (Ne.symm same)] at taken
          exact taken

/-- A renamed event has an identity that the log has, so that it is not installed. -/
theorem keepFirst_reuse {sessionId : String} {seen : List (String × String)}
    {existing : ExistingUsers} {events : List TranscriptEvent}
    (own : ∀ event ∈ events, event.sessionId = sessionId)
    (known : ∀ content, ∀ user ∈ existing.get content, (sessionId, user.eventId) ∈ seen) :
    keepFirst TranscriptEvent.identity seen (reuseExistingUsers existing events) =
      keepFirst TranscriptEvent.identity seen
        (ownIdentities (fun content => (existing.get content).length) events) := by
  induction events generalizing seen existing with
  | nil => rfl
  | cons event rest ih =>
    have ownRest : ∀ other ∈ rest, other.sessionId = sessionId :=
      fun other mem => own other (List.mem_cons_of_mem event mem)
    -- An event that stays as it is stands in both lists.
    have stays : keepFirst TranscriptEvent.identity seen
          (event :: reuseExistingUsers existing rest) =
        keepFirst TranscriptEvent.identity seen
          (event :: ownIdentities (fun content => (existing.get content).length) rest) := by
      by_cases old : event.identity ∈ seen
      · rw [keepFirst_cons_of_seen old, keepFirst_cons_of_seen old, ih ownRest known]
      · rw [keepFirst_cons_of_new old, keepFirst_cons_of_new old]
        rw [ih ownRest fun content user mem => List.mem_cons_of_mem _ (known content user mem)]
    cases kind : fallbackContent? event with
    | none =>
      simp only [reuseExistingUsers, kind, ownIdentities_cons_of_none kind]
      exact stays
    | some key =>
      simp only [reuseExistingUsers, kind, ownIdentities_cons_of_some kind]
      cases held : existing.get key with
      | nil =>
        rw [if_pos List.length_nil]
        exact stays
      | cons user claims =>
        rw [if_neg (by simp)]
        have taken : (withIdsOf event user).identity ∈ seen := by
          rw [TranscriptEvent.identity, withIdsOf, own event List.mem_cons_self]
          exact known key user (held ▸ List.mem_cons_self)
        rw [keepFirst_cons_of_seen taken]
        rw [ih ownRest]
        · congr 2
          funext content
          rw [get_put]
          by_cases same : content = key
          · subst same
            simp
          · simp [same]
        · intro content other mem
          rw [get_put] at mem
          split at mem
          · exact known key other (held ▸ List.mem_cons_of_mem user mem)
          · exact known content other mem

end Installed

section Statements

variable (dateParse : String → Option Int) (sessionId : String)
  (entries : List SdkTranscriptContextEntry) (log : TranscriptEventLog)

theorem sessionId_of_reconciled {event : TranscriptEvent}
    (mem : event ∈ reconcileTranscriptContextEntries dateParse sessionId entries) :
    event.sessionId = sessionId := by
  obtain ⟨⟨index, _⟩, placed, rfl⟩ := List.mem_map.mp mem
  exact (origin_of_mem placed).sessionId_eq

/-- What a backfill appends to the log. -/
theorem events_backfill :
    (backfillTranscriptFromSessionManager dateParse sessionId entries log).events =
      log.events ++ keepFirst TranscriptEvent.identity (log.events.map TranscriptEvent.identity)
        (ownIdentities (claims log sessionId)
          (reconcileTranscriptContextEntries dateParse sessionId entries)) := by
  rw [backfillTranscriptFromSessionManager]
  cases entries with
  | nil => exact (List.append_nil log.events).symm
  | cons entry rest =>
    rw [if_neg (by simp)]
    dsimp only
    rw [events_hydrate, keepFirst_reuse
      (fun event mem => sessionId_of_reconciled dateParse sessionId _ mem)
      fun content user mem => identity_of_mem_index mem]
    simp only [length_get_index]

/-- The identity of an event that keeps its own is in the log afterwards. -/
theorem identity_mem_backfill {event : TranscriptEvent}
    (mem : event ∈ ownIdentities (claims log sessionId)
      (reconcileTranscriptContextEntries dateParse sessionId entries)) :
    event.identity ∈ (backfillTranscriptFromSessionManager dateParse sessionId entries
      log).events.map TranscriptEvent.identity := by
  rw [events_backfill, List.map_append]
  by_cases old : event.identity ∈ log.events.map TranscriptEvent.identity
  · exact List.mem_append_left _ old
  · obtain ⟨kept, here, same, -⟩ := exists_kept TranscriptEvent.identity
      (List.pairwise_of_forall (R := fun _ _ => True) fun _ _ => trivial) mem old
    exact List.mem_append_right _ (List.mem_map.mpr ⟨kept, here, same⟩)

theorem claims_le_backfill (content : UserContent) :
    claims log sessionId content ≤
      claims (backfillTranscriptFromSessionManager dateParse sessionId entries log) sessionId
        content := by
  rw [claims, claims, TranscriptEventLog.forSession, TranscriptEventLog.forSession,
    events_backfill, List.filter_append, List.countP_append]
  exact Nat.le_add_right _ _

theorem backfill_idempotent :
    backfillTranscriptFromSessionManager dateParse sessionId entries
        (backfillTranscriptFromSessionManager dateParse sessionId entries log) =
      backfillTranscriptFromSessionManager dateParse sessionId entries log := by
  have again := events_backfill dateParse sessionId entries
    (backfillTranscriptFromSessionManager dateParse sessionId entries log)
  -- The second time there are at least as many claims, so nothing new keeps its identity.
  rw [keepFirst_eq_nil, List.append_nil] at again
  · generalize backfillTranscriptFromSessionManager dateParse sessionId entries log = once
      at again ⊢
    cases once
    generalize backfillTranscriptFromSessionManager dateParse sessionId entries _ = twice at again ⊢
    cases twice
    obtain rfl := again
    rfl
  · intro event mem
    apply identity_mem_backfill
    exact ownIdentities_subset (claims_le_backfill dateParse sessionId entries log) _ event mem

/-- The user facts of a content after a backfill, with those whose identity was known. -/
theorem userFacts_backfill (content : UserContent) :
    userFacts ((backfillTranscriptFromSessionManager dateParse sessionId entries
          log).forSession sessionId) content +
        (min (claims log sessionId content)
            (fallbacks (reconcileTranscriptContextEntries dateParse sessionId entries) content) +
          knownFacts log sessionId
            (reconcileTranscriptContextEntries dateParse sessionId entries) content) =
      userFacts (log.forSession sessionId) content +
        userFacts (reconcileTranscriptContextEntries dateParse sessionId entries) content := by
  have installed : ∀ event ∈ keepFirst TranscriptEvent.identity
      (log.events.map TranscriptEvent.identity) (ownIdentities (claims log sessionId)
        (reconcileTranscriptContextEntries dateParse sessionId entries)),
      decide (event.sessionId = sessionId) = true := by
    intro event kept
    apply decide_eq_true
    apply sessionId_of_reconciled dateParse sessionId entries
    exact (ownIdentities_sublist _ _).subset (mem_of_mem_keepFirst kept)
  have parts := userFacts_ownIdentities (claims log sessionId)
    (reconcileTranscriptContextEntries dateParse sessionId entries) content
  have kept := countP_keepFirst_add TranscriptEvent.identity
    (fun event => decide (userSignature event = some content))
    (log.events.map TranscriptEvent.identity) (ownIdentities (claims log sessionId)
      (reconcileTranscriptContextEntries dateParse sessionId entries))
  have after : (backfillTranscriptFromSessionManager dateParse sessionId entries
      log).forSession sessionId = log.forSession sessionId ++
        keepFirst TranscriptEvent.identity (log.events.map TranscriptEvent.identity)
          (ownIdentities (claims log sessionId)
            (reconcileTranscriptContextEntries dateParse sessionId entries)) := by
    rw [TranscriptEventLog.forSession, events_backfill, List.filter_append,
      List.filter_eq_self.mpr installed]
    rfl
  rw [after, knownFacts]
  rw [userFacts, userFacts] at parts
  rw [userFacts, List.countP_append, userFacts, userFacts, userFacts]
  omega

/-- A backfill keeps what it promises exactly when the live facts suffice. -/
theorem backfill_keeps_iff : BackfillKeeps dateParse sessionId entries log ↔
    LiveFactsSuffice dateParse sessionId entries log := by
  constructor
  · intro keeps content
    have counted := userFacts_backfill dateParse sessionId entries log content
    have conserved := keeps.conserved content
    omega
  · intro suffice
    refine ⟨fun content => ?_, fun event mem plain => ?_, ?_, ?_⟩
    · have counted := userFacts_backfill dateParse sessionId entries log content
      have enough := suffice content
      omega
    · apply List.contains_iff_mem.mpr
      apply identity_mem_backfill
      exact mem_ownIdentities_of_none plain mem _
    · rw [events_backfill]
      exact List.prefix_append _ _
    · exact backfill_idempotent dateParse sessionId entries log

end Statements

/-- A prompt of the app, as it was recorded. -/
def livePrompt : TranscriptEvent :=
  ⟨"server:s1:user_confirmed:app-1", "s1", 2, none, .userConfirmed "app-1" "go" none none⟩

/-- A prompt of the terminal that was not recorded, and after it that of the app, of the same
text, with its durable entry. -/
def repeatedPrompts : List SdkTranscriptContextEntry :=
  [.message (some {
      role := "user", content := .text "go", summary := none, timestamp := some 1,
      toolCallId := none, isError := false, usage := none, tokensBefore := none }),
    .message (some {
      role := "user", content := .text "go", summary := none, timestamp := some 2,
      toolCallId := none, isError := false, usage := none, tokensBefore := none }),
    .custom (some transcriptEventCustomType) (some (.object [
      ("kind", .string "user_confirmed"), ("eventId", .string livePrompt.eventId),
      ("sessionId", .string "s1"), ("ts", .number 2 0), ("clientMessageId", .string "app-1"),
      ("text", .string "go")]))]

/-- The prompt of the terminal takes the live fact of the other one, whose durable entry then
finds itself in the log. -/
theorem message_swallowed : ¬ BackfillKeeps (fun _ => none) "s1" repeatedPrompts
    (TranscriptEventLog.empty.hydrate [livePrompt]) := by
  intro keeps
  have kept := keeps.conserved ("go", [])
  have mapped : userFacts (reconcileTranscriptContextEntries (fun _ => none) "s1"
      repeatedPrompts) ("go", []) = 2 := by decide +kernel
  have after : userFacts ((backfillTranscriptFromSessionManager (fun _ => none) "s1"
      repeatedPrompts (TranscriptEventLog.empty.hydrate [livePrompt])).forSession "s1")
        ("go", []) = 1 := by decide +kernel
  omega

end OutpostPi.Session.TranscriptBackfill
