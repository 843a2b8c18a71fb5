import OutpostPi.Lib.Machine

/-!
# The fence of the working indicator

The app shows a room as working while a turn runs. Relay frames and local corrections both change
it. Every idle observation advances an epoch of the session, and a correction that names a turn
counts only if the turn was recorded in the current epoch, so that a late echo of a finished turn
does not show the room as working again.

A turn is recorded by the first correction that finds the room live, online and in its session.
`working_fence` says that the fence holds in the runs in which every turn has got that far by the
time the room is observed idle, and `reopened` is a run of a turn that has not.
-/

set_option autoImplicit false

namespace OutpostPi.App

open OutpostPi.Lib

/-! ## State -/

/-- A cached room, with the fields that corrections look at. -/
structure RoomInfo where
  sessionId : Option String
  working : Bool
  deriving DecidableEq

/-- A working correction named a turn. -/
structure Naming where
  sessionId : String
  turnId : String
  /-- It found the room live, online and in the session. -/
  reached : Bool
  deriving DecidableEq

/-- One room, with what the fence has seen of it so far. -/
structure WorkingRoom where
  /-- The entry of `_roomsByPeer`. -/
  room : Option RoomInfo
  /-- The room is in `_liveRoomIds`. -/
  live : Bool
  /-- `_status is StatusOnline`. -/
  online : Bool
  /-- `_workingAuthorityEpochs`, by session. -/
  epochs : String → Option Nat
  /-- `_workingTurnEpochs`, by session and turn. -/
  turns : String → String → Option Nat
  /-- The sessions that the room has left. -/
  past : List String
  /-- The turns that corrections have named. -/
  named : List Naming
  /-- Those of them after which the room was observed idle in their session. -/
  stale : List Naming

/-- What changes the indicator. -/
inductive WorkingEvent
  /-- `room_announced`. Fields that are absent are kept. -/
  | announced (sessionId : Option String) (working : Option Bool)
  /-- `room_meta_updated`. A session id may be absent, cleared or set. -/
  | metaUpdated (sessionId : Option (Option String)) (working : Option Bool)
  /-- `rooms`, with its entries for the room. -/
  | snapshot (entries : List RoomInfo)
  /-- `room_ended`. -/
  | ended
  /-- `markRoomWorking`, for the active peer and this room or not. -/
  | mark (addressed working : Bool) (sessionId : String) (turnId : Option String)
  /-- `_learnSessionFromPairOk`. -/
  | paired (sessionId : String)
  /-- The status of the connection changes, with another channel or the same. -/
  | status (online replaced : Bool)
  /-- `_markActiveRoomOffline`. -/
  | pingsMissed
  /-- `_clearActiveRoomWorking`. -/
  | cleared
  deriving DecidableEq

namespace WorkingRoom

/-! ## Operations -/

/-- The session of the cached room. -/
def session? (w : WorkingRoom) : Option String := w.room.bind RoomInfo.sessionId

/-- The cached room is working. -/
def works (w : WorkingRoom) : Bool := w.room.any RoomInfo.working

/-- The current epoch of a session. -/
def epoch (w : WorkingRoom) (session : String) : Nat := (w.epochs session).getD 0

/-- `_advanceWorkingAuthority`. -/
def advanceWorkingAuthority (w : WorkingRoom) (session : Option String) : WorkingRoom :=
  match session with
  | none => w
  | some session =>
    if session = "" then w
    else
      { w with
        epochs := fun other => if other = session then some (w.epoch session + 1) else none
        turns := fun other => if other = session then w.turns session else fun _ => none }

/-- The room is observed idle in a session. -/
def observeIdle (w : WorkingRoom) (session : Option String) : WorkingRoom :=
  { w.advanceWorkingAuthority session with
    stale := w.stale ++ w.named.filter fun naming => session = some naming.sessionId }

/-- The cached room becomes another one. -/
def setRoom (w : WorkingRoom) (room : RoomInfo) : WorkingRoom :=
  { w with
    room := some room
    past := w.past ++ w.session?.toList.filter fun left => room.sessionId ≠ some left }

/-- The cached room becomes the one that a frame shows, observed idle or not. -/
def present (w : WorkingRoom) (next : RoomInfo) (idle : Bool) : WorkingRoom :=
  (if idle then w.observeIdle next.sessionId else w).setRoom next

/-- A room is announced, and live from then on. -/
def announce (w : WorkingRoom) (sessionId : Option String) (working : Option Bool) :
    WorkingRoom :=
  let next : RoomInfo :=
    { sessionId := sessionId.or w.session?
      working := working.getD w.works }
  { w.present next (!next.working) with live := true }

/-- The metadata of a room change. -/
def updateMeta (w : WorkingRoom) (sessionId : Option (Option String)) (working : Option Bool) :
    WorkingRoom :=
  match w.room with
  | none => w
  | some current =>
    let next : RoomInfo :=
      { sessionId := sessionId.getD current.sessionId
        working := working.getD current.working }
    w.present next (working = some false)

/-- One entry of a snapshot. -/
def applyEntry (w : WorkingRoom) (entry : RoomInfo) : WorkingRoom :=
  w.present ⟨entry.sessionId.or w.session?, entry.working⟩ (!entry.working)

/-- The cached room is shown as working or not. -/
def setWorking (w : WorkingRoom) (working : Bool) : WorkingRoom :=
  { w with room := w.room.map fun room => { room with working := working } }

/-- A room that a snapshot lacks is not live, and not working. -/
def applySnapshot (w : WorkingRoom) (entries : List RoomInfo) : WorkingRoom :=
  if entries.isEmpty then { w.setWorking false with live := false }
  else { entries.foldl applyEntry w with live := true }

/-- A room ends, which observes it idle. -/
def endRoom (w : WorkingRoom) : WorkingRoom :=
  match w.room with
  | none => { w with live := false }
  | some room => { (w.observeIdle room.sessionId).setWorking false with live := false }

/-- A correction for the session gets as far as the fence. -/
def accepts (w : WorkingRoom) (session : String) : Bool :=
  w.session? = some session && w.online && w.live

/-- A correction names a turn. -/
def addNaming (w : WorkingRoom) (session turn : String) (reached : Bool) : WorkingRoom :=
  { w with named := w.named ++ [⟨session, turn, reached⟩] }

/-- `putIfAbsent`. -/
def recordTurn (w : WorkingRoom) (session turn : String) : WorkingRoom :=
  match w.turns session turn with
  | some _ => w
  | none =>
    { w with turns := fun other key =>
        if other = session ∧ key = turn then some (w.epoch session) else w.turns other key }

/-- A correction. One that names a turn counts only while the turn is of the current epoch. -/
def markRoomWorking (w : WorkingRoom) (addressed working : Bool) (session : String)
    (turnId : Option String) : WorkingRoom :=
  let reached := addressed && w.accepts session
  if working then
    match turnId with
    | none => w
    | some turn =>
      if turn = "" then w
      else
        let w := w.addNaming session turn reached
        if reached then
          let epoch := w.epoch session
          let observed := (w.turns session turn).getD epoch
          let w := w.recordTurn session turn
          if observed < epoch then w else w.setWorking true
        else w
  else if reached then (w.observeIdle (some session)).setWorking false
  else w

/-- A pairing tells the session of the room. -/
def learnSession (w : WorkingRoom) (sessionId : String) : WorkingRoom :=
  { w.setRoom ⟨if sessionId = "" then w.session? else some sessionId, w.works⟩ with live := true }

/-- The sessions that the entries of a snapshot show idle, after the one the room is in. -/
def idleSessions (session : Option String) : List RoomInfo → List String
  | [] => []
  | entry :: entries =>
    let next := entry.sessionId.or session
    (if entry.working then [] else next.toList) ++ idleSessions next entries

/-- The sessions in which an event shows the room idle. -/
def idles (w : WorkingRoom) : WorkingEvent → List String
  | .announced sessionId working =>
    if working.getD w.works then [] else (sessionId.or w.session?).toList
  | .metaUpdated sessionId working =>
    if working = some false then
      (w.room.bind fun current => sessionId.getD current.sessionId).toList
    else []
  | .snapshot entries => idleSessions w.session? entries
  | .ended => w.session?.toList
  | .mark addressed working sessionId _ =>
    if !working && (addressed && w.accepts sessionId) then [sessionId] else []
  | .paired _ | .status _ _ | .pingsMissed | .cleared => []

/-- What an event does to the room. -/
def step (w : WorkingRoom) : WorkingEvent → WorkingRoom
  | .announced sessionId working => w.announce sessionId working
  | .metaUpdated sessionId working => w.updateMeta sessionId working
  | .snapshot entries => w.applySnapshot entries
  | .ended => w.endRoom
  | .mark addressed working sessionId turnId =>
    w.markRoomWorking addressed working sessionId turnId
  | .paired sessionId => w.learnSession sessionId
  | .status online replaced =>
    { w with online := online, live := w.live && !(w.online && (!online || replaced)) }
  | .pingsMissed => if w.live then { w.setWorking false with live := false } else w
  | .cleared => w.setWorking false

/-- A room of which at most a cached session is known. -/
def start (cached : Option (Option String)) : WorkingRoom :=
  ⟨cached.map fun sessionId => ⟨sessionId, false⟩, false, false, fun _ => none, fun _ _ => none,
    [], [], []⟩

end WorkingRoom

/-- The frames and corrections of one room. -/
def workingRoom : Machine WorkingRoom WorkingEvent where
  Init w := ∃ cached, w = .start cached
  step w event := some (w.step event)

/-! ## What the fence is for -/

/-- What a step does to the indicator. -/
structure FencedStep (w : WorkingRoom) (event : WorkingEvent) (w' : WorkingRoom) : Prop where
  /-- A turn that was named before the room was observed idle does not show it as working. -/
  closed : ∀ addressed session turn reached, event = .mark addressed true session (some turn) →
    ⟨session, turn, reached⟩ ∈ w.stale → w'.room = w.room
  /-- A turn that nothing named before the latest idle observation does, when the room is live and
  online and in its session. -/
  opened : ∀ session turn, event = .mark true true session (some turn) → turn ≠ "" →
    (∀ reached, ⟨session, turn, reached⟩ ∉ w.stale) → w.accepts session = true →
    w'.works = true
  /-- A correction for another room or session, or for a room that is not live, does nothing. -/
  ignored : ∀ addressed working session turnId,
    event = .mark addressed working session turnId →
    (addressed && w.accepts session) = false →
    w'.room = w.room ∧ w'.live = w.live ∧ w'.epochs = w.epochs ∧ w'.turns = w.turns

/-- The session id has not returned to an earlier value. -/
def WorkingRoom.Unreturned (w : WorkingRoom) : Prop := (w.past ++ w.session?.toList).Nodup

/-- The session id of the room does not return to an earlier value. -/
def NeverReturns (w : WorkingRoom) (event : WorkingEvent) : Prop := (w.step event).Unreturned

instance (w : WorkingRoom) (event : WorkingEvent) : Decidable (NeverReturns w event) :=
  inferInstanceAs (Decidable ((w.step event).past ++ (w.step event).session?.toList).Nodup)

/-- A correction is made for a session that has an id. -/
def Corrects : WorkingEvent → Prop
  | .mark _ _ sessionId _ => sessionId ≠ ""
  | _ => True

instance : (event : WorkingEvent) → Decidable (Corrects event)
  | .mark _ _ sessionId _ => inferInstanceAs (Decidable (sessionId ≠ ""))
  | .announced _ _ | .metaUpdated _ _ | .snapshot _ | .ended | .paired _ | .status _ _
  | .pingsMissed | .cleared => isTrue trivial

/-- The runs of one room whose session id never returns to an earlier value. -/
def Admitted (w : WorkingRoom) (event : WorkingEvent) : Prop :=
  NeverReturns w event ∧ Corrects event

instance (w : WorkingRoom) (event : WorkingEvent) : Decidable (Admitted w event) :=
  inferInstanceAs (Decidable (_ ∧ _))

/-- When the room is observed idle, every turn that was named in the session has reached it. -/
def Arrived (w : WorkingRoom) (event : WorkingEvent) : Prop :=
  ∀ session ∈ w.idles event, ∀ naming ∈ w.named, naming.sessionId = session →
    ⟨session, naming.turnId, true⟩ ∈ w.named

instance (w : WorkingRoom) (event : WorkingEvent) : Decidable (Arrived w event) :=
  inferInstanceAs (Decidable (∀ session ∈ w.idles event, ∀ naming ∈ w.named, _))

/-- Nothing is observed idle before its turns have reached it. -/
def Fences (w : WorkingRoom) (event : WorkingEvent) : Prop := Admitted w event ∧ Arrived w event

instance (w : WorkingRoom) (event : WorkingEvent) : Decidable (Fences w event) :=
  inferInstanceAs (Decidable (_ ∧ _))

/-! ## The ledger of epochs -/

namespace WorkingRoom

variable {w w' : WorkingRoom} {session turn : String} {recorded : Nat}

/-- What is recorded of the turns, and when. -/
structure Sound (w : WorkingRoom) : Prop where
  bounded : ∀ session turn recorded, w.turns session turn = some recorded →
    recorded ≤ w.epoch session
  /-- An idle observation is an epoch, unless the session is empty. -/
  fenced : ∀ session turn recorded, session ≠ "" → w.turns session turn = some recorded →
    (⟨session, turn, true⟩ ∈ w.stale ↔ recorded < w.epoch session)
  blank : w.epochs "" = none
  /-- The turns that have reached the room in its session are recorded. -/
  recorded : ∀ session turn, w.session? = some session → ⟨session, turn, true⟩ ∈ w.named →
    (w.turns session turn).isSome = true
  /-- They have reached it in its session, or in one that it has left. -/
  visited : ∀ session turn, ⟨session, turn, true⟩ ∈ w.named ∨ (w.turns session turn).isSome = true →
    session ∈ w.past ∨ w.session? = some session
  named : ∀ session turn, ⟨session, turn, true⟩ ∈ w.stale ∨ (w.turns session turn).isSome = true →
    ⟨session, turn, true⟩ ∈ w.named

/-- The ledger does not depend on what the room shows. -/
theorem Sound.congr (sound : w.Sound) (session : w'.session? = w.session?)
    (epochs : w'.epochs = w.epochs) (turns : w'.turns = w.turns) (past : w'.past = w.past)
    (named : w'.named = w.named) (stale : w'.stale = w.stale) : w'.Sound := by
  obtain ⟨bounded, fenced, blank, recorded, visited, known⟩ := sound
  constructor <;> simp only [epoch, session, epochs, turns, past, named, stale]
  · exact bounded
  · exact fenced
  · exact blank
  · exact recorded
  · exact visited
  · exact known

/-- Changing the working flag leaves the session. -/
theorem session?_setWorking (w : WorkingRoom) (working : Bool) :
    (w.setWorking working).session? = w.session? := by
  cases h : w.room <;> simp [session?, setWorking, h]

/-- Changing the working flag keeps the fence sound. -/
theorem Sound.setWorking (sound : w.Sound) (working : Bool) : (w.setWorking working).Sound :=
  sound.congr (session?_setWorking w working) rfl rfl rfl rfl rfl

/-! ## Sessions -/

variable {next : RoomInfo}

/-- If no fenced session returns after the presentation, none had before it. -/
theorem Unreturned.of_setRoom (unreturned : (w.setRoom next).Unreturned) : w.Unreturned := by
  unfold Unreturned at *
  cases session : w.session? with
  | none => simpa [setRoom, session] using unreturned.sublist (List.sublist_append_left _ _)
  | some old =>
    by_cases same : next.sessionId = some old
    · have past : (w.setRoom next).past = w.past := by simp [setRoom, session, same]
      have here : (w.setRoom next).session? = some old := same
      rwa [past, here] at unreturned
    · have kept := unreturned.sublist (List.sublist_append_left _ _)
      simpa [setRoom, session, same] using kept

/-- A session that the room enters is one that nothing has reached. -/
theorem Sound.setRoom (sound : w.Sound) (unreturned : (w.setRoom next).Unreturned) :
    (w.setRoom next).Sound :=
  { sound with
    recorded session turn here reached := by
      rcases sound.visited session turn (.inl reached) with left | current
      · have again : session ∉ (w.setRoom next).past := by
          intro mem
          have apart := (List.nodup_append.mp unreturned).2.2 session mem session
          exact apart (by simp [here]) rfl
        exact absurd (List.mem_append_left _ left) again
      · exact sound.recorded session turn current reached
    visited session turn reached := by
      rcases sound.visited session turn reached with left | current
      · exact .inl (List.mem_append_left _ left)
      · by_cases same : next.sessionId = some session
        · exact .inr same
        · refine .inl (List.mem_append_right _ ?_)
          simp [current, same] }

/-! ## Idle observations -/

/-- An idle observation touches the fence only. -/
theorem observeIdle_frame (w : WorkingRoom) (session : Option String) :
    (w.observeIdle session).room = w.room ∧ (w.observeIdle session).live = w.live ∧
      (w.observeIdle session).past = w.past ∧ (w.observeIdle session).named = w.named := by
  cases session with
  | none => exact ⟨rfl, rfl, rfl, rfl⟩
  | some session =>
    unfold observeIdle advanceWorkingAuthority
    dsimp only
    split <;> exact ⟨rfl, rfl, rfl, rfl⟩

/-- The empty session has no epochs. -/
theorem Sound.observeBlank (sound : w.Sound) : (w.observeIdle (some "")).Sound := by
  have shape : w.observeIdle (some "") =
      { w with
        stale := w.stale ++ w.named.filter fun naming => some "" = some naming.sessionId } := by
    simp [WorkingRoom.observeIdle, advanceWorkingAuthority]
  rw [shape]
  refine ⟨sound.bounded, fun session turn recorded filled held => ?_, sound.blank, sound.recorded,
    sound.visited, fun session turn known => ?_⟩
  · refine Iff.trans ?_ (sound.fenced session turn recorded filled held)
    simp [filled]
  · rcases known with stale | held
    · rcases List.mem_append.mp stale with earlier | now
      · exact sound.named session turn (.inl earlier)
      · exact (List.mem_filter.mp now).1
    · exact sound.named session turn (.inr held)

/-- An idle observation makes every turn of the session one of an earlier epoch. -/
theorem Sound.observeNamed (sound : w.Sound) (here : w.session? = some session)
    (filled : session ≠ "") : (w.observeIdle (some session)).Sound := by
  have shape : w.observeIdle (some session) =
      { w with
        epochs := fun other => if other = session then some (w.epoch session + 1) else none
        turns := fun other => if other = session then w.turns session else fun _ => none
        stale := w.stale ++
          w.named.filter fun naming => some session = some naming.sessionId } := by
    simp only [WorkingRoom.observeIdle, advanceWorkingAuthority, if_neg filled]
  -- what is on record afterwards was on record for this session
  have kept : ∀ {other key recorded},
      (if other = session then w.turns session else fun _ => none) key = some recorded →
      other = session ∧ w.turns session key = some recorded := by
    intro other key recorded held
    split at held
    · next same => exact ⟨same, held⟩
    · cases held
  rw [shape]
  refine ⟨fun other key recorded held => ?_, fun other key recorded _ held => ?_,
    if_neg (Ne.symm filled), fun other key current reached => ?_, fun other key reached => ?_,
    fun other key known => ?_⟩
  -- the epoch has grown, the turns on record have not
  · obtain ⟨rfl, held⟩ := kept held
    simp only [epoch, if_true, Option.getD_some]
    exact Nat.le_succ_of_le (sound.bounded other key recorded held)
  -- every turn on record is stale now, and of an earlier epoch
  · obtain ⟨rfl, held⟩ := kept held
    have known := sound.named other key (.inr (Option.isSome_of_eq_some held))
    simp only [epoch, if_true, Option.getD_some]
    refine iff_of_true (List.mem_append_right _ ?_)
      (Nat.lt_succ_of_le (sound.bounded other key recorded held))
    exact List.mem_filter.mpr ⟨known, decide_eq_true rfl⟩
  · obtain rfl : session = other := Option.some.inj (here.symm.trans current)
    simp only [if_true]
    exact sound.recorded session key here reached
  · refine sound.visited other key (reached.imp_right fun held => ?_)
    obtain ⟨recorded, held⟩ := Option.isSome_iff_exists.mp held
    obtain ⟨rfl, held⟩ := kept held
    exact Option.isSome_of_eq_some held
  · rcases known with stale | held
    · rcases List.mem_append.mp stale with earlier | now
      · exact sound.named other key (.inl earlier)
      · exact (List.mem_filter.mp now).1
    · obtain ⟨recorded, held⟩ := Option.isSome_iff_exists.mp held
      obtain ⟨rfl, held⟩ := kept held
      exact sound.named other key (.inr (Option.isSome_of_eq_some held))

/-- The room is observed idle in the session that it is in. -/
theorem Sound.observeIdle (sound : w.Sound) : (w.observeIdle w.session?).Sound := by
  cases here : w.session? with
  | none =>
    refine sound.congr rfl rfl rfl rfl rfl ?_
    simp [WorkingRoom.observeIdle]
  | some session =>
    by_cases empty : session = ""
    · subst empty
      exact sound.observeBlank
    · exact sound.observeNamed here empty

/-- What a frame shows does not depend on whether the observation or the room comes first. -/
theorem present_idle (w : WorkingRoom) (next : RoomInfo) :
    w.present next true = (w.setRoom next).observeIdle (w.setRoom next).session? := by
  obtain ⟨sessionId, working⟩ := next
  cases sessionId with
  | none => rfl
  | some session =>
    unfold WorkingRoom.present observeIdle advanceWorkingAuthority
    simp only [if_true, setRoom, session?, Option.bind_some]
    split <;> rfl

/-- The session that a presentation names has not been left before. -/
theorem present_unreturned {idle : Bool} (unreturned : (w.present next idle).Unreturned) :
    (w.setRoom next).Unreturned := by
  cases idle with
  | false => exact unreturned
  | true =>
    rw [present_idle] at unreturned
    obtain ⟨room, -, past, -⟩ :=
      observeIdle_frame (w.setRoom next) (w.setRoom next).session?
    rwa [Unreturned, past, session?, room] at unreturned

/-- A presented room keeps the fence sound. -/
theorem Sound.present {idle : Bool} (sound : w.Sound)
    (unreturned : (w.present next idle).Unreturned) : (w.present next idle).Sound := by
  have entered := sound.setRoom (present_unreturned unreturned)
  cases idle with
  | false => exact entered
  | true =>
    rw [present_idle]
    exact entered.observeIdle

/-! ## Corrections -/

/-- A correction that did not reach the room leaves nothing behind. -/
theorem Sound.addNaming (sound : w.Sound) (session turn : String) :
    (w.addNaming session turn false).Sound :=
  { sound with
    recorded other key here reached := by
      refine sound.recorded other key here ?_
      simpa [WorkingRoom.addNaming] using reached
    visited other key reached := by
      refine sound.visited other key ?_
      simpa [WorkingRoom.addNaming] using reached
    named other key known := List.mem_append_left _ (sound.named other key known) }

/-- A turn that reaches the room in its session is recorded. -/
theorem Sound.recordTurn (sound : w.Sound) (here : w.session? = some session) (turn : String) :
    ((w.addNaming session turn true).recordTurn session turn).Sound := by
  cases known : w.turns session turn with
  -- a turn that is on record stays as it is
  | some recorded =>
    have same : (w.addNaming session turn true).recordTurn session turn =
        w.addNaming session turn true := by
      simp only [WorkingRoom.recordTurn, WorkingRoom.addNaming, known]
    rw [same]
    refine ⟨sound.bounded, sound.fenced, sound.blank, fun other key current reached => ?_,
      fun other key reached => ?_, fun other key held => ?_⟩
    · rcases List.mem_append.mp reached with earlier | now
      · exact sound.recorded other key current earlier
      · obtain ⟨rfl, rfl⟩ : other = session ∧ key = turn := by simpa using now
        exact Option.isSome_of_eq_some known
    · rcases reached with reached | held
      · rcases List.mem_append.mp reached with earlier | now
        · exact sound.visited other key (.inl earlier)
        · obtain ⟨rfl, -⟩ : other = session ∧ key = turn := by simpa using now
          exact .inr here
      · exact sound.visited other key (.inr held)
    · exact List.mem_append_left _ (sound.named other key held)
  -- a turn that is not on record cannot be stale, since a stale one has been recorded
  | none =>
    have fresh : ⟨session, turn, true⟩ ∉ w.stale := by
      intro stale
      have held := sound.recorded session turn here (sound.named session turn (.inl stale))
      rw [known] at held
      cases held
    have same : (w.addNaming session turn true).recordTurn session turn =
        { w with
          named := w.named ++ [⟨session, turn, true⟩]
          turns := fun other key =>
            if other = session ∧ key = turn then some (w.epoch session)
            else w.turns other key } := by
      simp only [WorkingRoom.recordTurn, WorkingRoom.addNaming, known]
      rfl
    rw [same]
    refine ⟨fun other key recorded held => ?_, fun other key recorded filled held => ?_,
      sound.blank, fun other key current reached => ?_, fun other key reached => ?_, fun other key held => ?_⟩
    · dsimp only at held
      split at held
      · next now =>
        obtain ⟨rfl, rfl⟩ := now
        exact Nat.le_of_eq (Option.some.inj held).symm
      · exact sound.bounded other key recorded held
    -- a turn recorded now is of the current epoch, and not stale
    · dsimp only at held
      split at held
      · next now =>
        obtain ⟨rfl, rfl⟩ := now
        cases held
        exact iff_of_false fresh (Nat.lt_irrefl _)
      · exact sound.fenced other key recorded filled held
    · dsimp only
      split
      · rfl
      · next other_turn =>
        rcases List.mem_append.mp reached with earlier | now
        · exact sound.recorded other key current earlier
        · exact absurd (by simpa using now) other_turn
    · by_cases now : other = session ∧ key = turn
      · rw [now.1]
        exact .inr here
      · refine sound.visited other key ?_
        simpa [now] using reached
    · by_cases now : other = session ∧ key = turn
      · rw [now.1, now.2]
        exact List.mem_append_right _ (List.mem_singleton_self _)
      · refine List.mem_append_left _ (sound.named other key ?_)
        simpa [now] using held

/-- A correction is accepted only for the session of the room. -/
theorem session_of_accepts (accepts : w.accepts session = true) : w.session? = some session := by
  simp only [WorkingRoom.accepts, Bool.and_eq_true, decide_eq_true_eq] at accepts
  exact accepts.1.1

/-- What a correction does that reaches the room with a turn. -/
theorem mark_reached (accepts : w.accepts session = true) (filled : turn ≠ "") :
    w.markRoomWorking true true session (some turn) =
      if (w.turns session turn).getD (w.epoch session) < w.epoch session then
        (w.addNaming session turn true).recordTurn session turn
      else ((w.addNaming session turn true).recordTurn session turn).setWorking true := by
  simp only [markRoomWorking, accepts, Bool.true_and, if_true, if_neg filled]
  rfl

variable {addressed : Bool}

/-- What a correction does that names a turn and does not reach the room. -/
theorem mark_missed (missed : (addressed && w.accepts session) = false) (filled : turn ≠ "") :
    w.markRoomWorking addressed true session (some turn) = w.addNaming session turn false := by
  simp [markRoomWorking, missed, filled]

/-- A correction of the working flag keeps the fence sound. -/
theorem Sound.mark (sound : w.Sound) (addressed working : Bool) (session : String)
    (turnId : Option String) : (w.markRoomWorking addressed working session turnId).Sound := by
  cases reached : addressed && w.accepts session with
  | false =>
    cases working with
    | false => simpa [markRoomWorking, reached] using sound
    | true =>
      cases turnId with
      | none => simpa [markRoomWorking] using sound
      | some turn =>
        by_cases filled : turn = ""
        · simpa [markRoomWorking, filled] using sound
        · rw [mark_missed reached filled]
          exact sound.addNaming session turn
  | true =>
    obtain ⟨rfl, accepts⟩ := Bool.and_eq_true_iff.mp reached
    have here := session_of_accepts accepts
    cases working with
    | false =>
      have closed : w.markRoomWorking true false session turnId =
          (w.observeIdle w.session?).setWorking false := by
        simp [markRoomWorking, accepts, here]
      rw [closed]
      exact sound.observeIdle.setWorking false
    | true =>
      cases turnId with
      | none => simpa [markRoomWorking] using sound
      | some turn =>
        by_cases filled : turn = ""
        · simpa [markRoomWorking, filled] using sound
        · rw [mark_reached accepts filled]
          split
          · exact sound.recordTurn here turn
          · exact (sound.recordTurn here turn).setWorking true

/-! ## Frames -/

/-- If no session returns through a listing, none had before it. -/
theorem entries_unreturned {entries : List RoomInfo}
    (unreturned : (entries.foldl applyEntry w).Unreturned) : w.Unreturned := by
  induction entries generalizing w with
  | nil => exact unreturned
  | cons entry entries ih => exact (present_unreturned (ih unreturned)).of_setRoom

/-- The entries of a listing keep the fence sound, one after another. -/
theorem Sound.entries {entries : List RoomInfo} (sound : w.Sound)
    (unreturned : (entries.foldl applyEntry w).Unreturned) :
    (entries.foldl applyEntry w).Sound := by
  induction entries generalizing w with
  | nil => exact sound
  | cons entry entries ih => exact ih (sound.present (entries_unreturned unreturned)) unreturned

/-- A whole listing keeps the fence sound. -/
theorem Sound.applySnapshot {entries : List RoomInfo} (sound : w.Sound)
    (unreturned : (w.applySnapshot entries).Unreturned) : (w.applySnapshot entries).Sound := by
  cases entries with
  | nil => exact (sound.setWorking false).congr rfl rfl rfl rfl rfl rfl
  | cons entry entries => exact (sound.entries unreturned).congr rfl rfl rfl rfl rfl rfl

/-- The end of a room keeps the fence sound. -/
theorem Sound.endRoom (sound : w.Sound) : w.endRoom.Sound := by
  cases room : w.room with
  | none =>
    have same : w.endRoom = { w with live := false } := by simp only [WorkingRoom.endRoom, room]
    rw [same]
    exact sound.congr rfl rfl rfl rfl rfl rfl
  | some current =>
    have here : w.session? = current.sessionId := by simp [session?, room]
    simp only [WorkingRoom.endRoom, room, ← here]
    exact (sound.observeIdle.setWorking false).congr rfl rfl rfl rfl rfl rfl

/-- A metadata update keeps the fence sound. -/
theorem Sound.updateMeta {sessionId : Option (Option String)} {working : Option Bool}
    (sound : w.Sound) (unreturned : (w.updateMeta sessionId working).Unreturned) :
    (w.updateMeta sessionId working).Sound := by
  unfold WorkingRoom.updateMeta at *
  split at *
  · exact sound
  · exact sound.present unreturned

/-- The step lemma: every event that brings no old session back keeps the fence sound. -/
theorem Sound.step (sound : w.Sound) {event : WorkingEvent} (never : NeverReturns w event) :
    (w.step event).Sound := by
  unfold NeverReturns at never
  cases event with
  | announced sessionId working => exact (sound.present never).congr rfl rfl rfl rfl rfl rfl
  | metaUpdated sessionId working => exact sound.updateMeta never
  | snapshot entries => exact sound.applySnapshot never
  | ended => exact sound.endRoom
  | mark addressed working session turnId => exact sound.mark addressed working session turnId
  | paired sessionId => exact (sound.setRoom never).congr rfl rfl rfl rfl rfl rfl
  | status online replaced => exact sound.congr rfl rfl rfl rfl rfl rfl
  | pingsMissed =>
    unfold WorkingRoom.step
    dsimp only
    split
    · exact (sound.setWorking false).congr rfl rfl rfl rfl rfl rfl
    · exact sound
  | cleared => exact sound.setWorking false

/-- The fence begins sound. -/
theorem sound_start (cached : Option (Option String)) : (start cached).Sound := by
  constructor <;> simp [start, epoch]

/-- The fence is sound in every state of a run without returning sessions. -/
theorem sound_of_reachable (reached : workingRoom.ReachableUnder Fences w) : w.Sound := by
  refine reached.invariant ?_ ?_
  · rintro _ ⟨cached, rfl⟩
    exact sound_start cached
  · intro w event w' sound fences taken
    cases taken
    exact sound.step fences.1.1

/-! ## Turns that have reached the room -/

/-- The turns that become stale where the room is observed idle in some sessions. -/
def retire (w : WorkingRoom) (sessions : List String) : List Naming :=
  sessions.flatMap fun session => w.named.filter fun naming => session = naming.sessionId

/-- An idle observation retires what its session has named. -/
theorem stale_observeIdle (w : WorkingRoom) (session : Option String) :
    (w.observeIdle session).stale = w.stale ++ w.retire session.toList := by
  cases session with
  | none => simp [observeIdle, retire]
  | some session => simp [observeIdle, retire]

/-- A presented room retires what its session has named, if it is idle. -/
theorem stale_present (w : WorkingRoom) (next : RoomInfo) (idle : Bool) :
    (w.present next idle).stale =
      w.stale ++ w.retire (if idle then next.sessionId.toList else []) := by
  cases idle with
  | false => exact (List.append_nil _).symm
  | true => exact stale_observeIdle w next.sessionId

/-- A presented room leaves the named turns alone. -/
theorem named_present (w : WorkingRoom) (next : RoomInfo) (idle : Bool) :
    (w.present next idle).named = w.named := by
  cases idle with
  | false => rfl
  | true => exact (observeIdle_frame w next.sessionId).2.2.2

/-- A listing retires what its idle entries retire. -/
theorem stale_entries (entries : List RoomInfo) (w : WorkingRoom) :
    (entries.foldl applyEntry w).stale = w.stale ++ w.retire (idleSessions w.session? entries) := by
  induction entries generalizing w with
  | nil => exact (List.append_nil _).symm
  | cons entry entries ih =>
    have session : (w.applyEntry entry).session? = entry.sessionId.or w.session? := rfl
    have named : (w.applyEntry entry).named = w.named := named_present w _ _
    have retired : (w.applyEntry entry).retire = w.retire := by
      funext sessions
      rw [retire, named, retire]
    rw [List.foldl_cons, ih, session, retired, applyEntry, stale_present, List.append_assoc,
      idleSessions, retire, retire, retire, List.flatMap_append]
    cases entry.working <;> rfl

/-- The turns that a step makes stale are those of the sessions that it shows idle. -/
theorem stale_step (w : WorkingRoom) (event : WorkingEvent) :
    (w.step event).stale = w.stale ++ w.retire (w.idles event) := by
  -- one case for each event: what `idles` lists is what the event retires
  cases event with
  | announced sessionId working =>
    refine (stale_present w _ _).trans ?_
    rw [idles]
    cases working.getD w.works <;> rfl
  | metaUpdated sessionId working =>
    rw [step, updateMeta, idles]
    cases room : w.room with
    | none => simp [retire]
    | some current =>
      refine (stale_present w _ _).trans ?_
      simp
  | snapshot entries =>
    cases entries with
    | nil => exact (List.append_nil _).symm
    | cons entry entries => exact stale_entries (entry :: entries) w
  | ended =>
    rw [step, endRoom, idles, session?]
    cases room : w.room with
    | none => exact (List.append_nil _).symm
    | some current => exact stale_observeIdle w current.sessionId
  | mark addressed working session turnId =>
    cases working with
    | false =>
      cases reached : addressed && w.accepts session with
      | false => simp [step, markRoomWorking, idles, reached, retire]
      | true =>
        have idle := stale_observeIdle w (some session)
        simpa [step, markRoomWorking, idles, reached, setWorking] using idle
    | true =>
      refine Eq.trans ?_ (List.append_nil _).symm
      cases turnId with
      | none => rfl
      | some turn =>
        -- a correction that opens the room retires nothing
        have recorded (reached : Bool) :
            ((w.addNaming session turn reached).recordTurn session turn).stale = w.stale := by
          unfold recordTurn
          split <;> rfl
        dsimp only [step, markRoomWorking]
        rw [if_pos rfl]
        split
        · rfl
        split
        · split
          · exact recorded _
          · exact recorded _
        · rfl
  | paired sessionId => exact (List.append_nil _).symm
  | status online replaced => exact (List.append_nil _).symm
  | pingsMissed =>
    rw [step]
    split <;> exact (List.append_nil _).symm
  | cleared => exact (List.append_nil _).symm

/-- Every stale turn has reached the room. -/
def AllReached (w : WorkingRoom) : Prop :=
  ∀ naming ∈ w.stale, ⟨naming.sessionId, naming.turnId, true⟩ ∈ w.stale

/-- An event whose retired turns had reached the room keeps every stale turn reached. -/
theorem AllReached.step (all : w.AllReached) {event : WorkingEvent} (arrived : Arrived w event) :
    (w.step event).AllReached := by
  intro naming mem
  rw [stale_step] at mem ⊢
  rcases List.mem_append.mp mem with earlier | now
  · exact List.mem_append_left _ (all naming earlier)
  · obtain ⟨session, idle, named⟩ := List.mem_flatMap.mp now
    obtain ⟨known, same⟩ := List.mem_filter.mp named
    obtain rfl := of_decide_eq_true same
    refine List.mem_append_right _ (List.mem_flatMap.mpr ⟨_, idle, List.mem_filter.mpr ⟨?_, ?_⟩⟩)
    · exact arrived _ idle naming known rfl
    · exact decide_eq_true rfl

/-- In a run within the fences, every stale turn has reached the room. -/
theorem allReached_of_reachable (reached : workingRoom.ReachableUnder Fences w) :
    w.AllReached := by
  refine reached.invariant ?_ ?_
  · rintro _ ⟨cached, rfl⟩ naming mem
    exact absurd mem List.not_mem_nil
  · intro w event w' all fences taken
    cases taken
    exact all.step fences.2

/-! ## The fence -/

/-- A stale turn leaves the room as it is. -/
theorem Sound.closed (sound : w.Sound) (filled : session ≠ "")
    (stale : ⟨session, turn, true⟩ ∈ w.stale) :
    (w.markRoomWorking addressed true session (some turn)).room = w.room := by
  by_cases empty : turn = ""
  · simp [markRoomWorking, empty]
  cases reached : addressed && w.accepts session with
  | false =>
    rw [mark_missed reached empty]
    rfl
  | true =>
    obtain ⟨rfl, accepts⟩ := Bool.and_eq_true_iff.mp reached
    have here := session_of_accepts accepts
    have held := sound.recorded session turn here (sound.named session turn (.inl stale))
    obtain ⟨recorded, known⟩ := Option.isSome_iff_exists.mp held
    have earlier := (sound.fenced session turn recorded filled known).mp stale
    rw [mark_reached accepts empty, known, Option.getD_some, if_pos earlier]
    simp [WorkingRoom.recordTurn, WorkingRoom.addNaming, known]

/-- A turn that is not stale is of the current epoch. -/
theorem Sound.current (sound : w.Sound) (fresh : ⟨session, turn, true⟩ ∉ w.stale) :
    ¬ (w.turns session turn).getD (w.epoch session) < w.epoch session := by
  cases known : w.turns session turn with
  | none => exact Nat.lt_irrefl _
  | some recorded =>
    by_cases filled : session = ""
    · subst filled
      simp [epoch, sound.blank]
    · exact fun earlier => fresh ((sound.fenced session turn recorded filled known).mpr earlier)

/-- A turn that was never retired opens the room. -/
theorem Sound.opened (sound : w.Sound) (filled : turn ≠ "")
    (fresh : ⟨session, turn, true⟩ ∉ w.stale) (accepts : w.accepts session = true) :
    (w.markRoomWorking true true session (some turn)).works = true := by
  rw [mark_reached accepts filled, if_neg (sound.current fresh)]
  have here := session_of_accepts accepts
  cases room : w.room with
  | none => simp [session?, room] at here
  | some current =>
    have shown : ((w.addNaming session turn true).recordTurn session turn).room = some current := by
      unfold WorkingRoom.recordTurn
      split <;> exact room
    simp [works, WorkingRoom.setWorking, shown]

/-- A correction that misses the room only records the turn it names. -/
theorem mark_ignored {working : Bool} {turnId : Option String}
    (missed : (addressed && w.accepts session) = false) :
    ∃ named, w.markRoomWorking addressed working session turnId = { w with named := named } := by
  cases working with
  | false => exact ⟨w.named, by simp [markRoomWorking, missed]⟩
  | true =>
    cases turnId with
    | none => exact ⟨w.named, by simp [markRoomWorking]⟩
    | some turn =>
      by_cases filled : turn = ""
      · exact ⟨w.named, by simp [markRoomWorking, filled]⟩
      · exact ⟨_, mark_missed missed filled⟩

end WorkingRoom

open WorkingRoom in
/-- A turn that was named before the room was observed idle does not show it as working again, one
that nothing named before that does, and a correction that does not reach the room changes
nothing. -/
theorem working_fence {w : WorkingRoom} (reached : workingRoom.ReachableUnder Fences w)
    (event : WorkingEvent) (corrects : Corrects event) : FencedStep w event (w.step event) := by
  have sound := sound_of_reachable reached
  constructor
  · rintro addressed session turn early rfl stale
    exact sound.closed corrects (allReached_of_reachable reached _ stale)
  · rintro session turn rfl filled fresh accepts
    exact sound.opened filled (fresh true) accepts
  · rintro addressed working session turnId rfl missed
    obtain ⟨named, result⟩ := @mark_ignored w session addressed working turnId missed
    rw [WorkingRoom.step, result]
    exact ⟨rfl, rfl, rfl, rfl⟩

/-- A turn is named before the room is live and again when it is, ends, and is echoed. -/
theorem working_fence_echo : ∃ w, workingRoom.ReachableUnder Fences w ∧
    ⟨"s", "t", false⟩ ∈ w.stale ∧ w.accepts "s" = true ∧
      FencedStep w (.mark true true "s" (some "t"))
        (w.step (.mark true true "s" (some "t"))) := by
  let schedule : List WorkingEvent :=
    [.status true false, .mark true true "s" (some "t"), .announced (some "s") (some true),
      .mark true true "s" (some "t"), .metaUpdated none (some false)]
  have meets : workingRoom.Meets Fences (.start none) schedule := by decide
  have ran : ((workingRoom.exec (.start none) schedule).any fun w =>
      decide (⟨"s", "t", false⟩ ∈ w.stale ∧ w.accepts "s" = true)) = true := by decide
  obtain ⟨w, executed, facts⟩ := (Option.any_eq_true _ _).mp ran
  obtain ⟨stale, accepts⟩ := of_decide_eq_true facts
  have reached : workingRoom.ReachableUnder Fences w :=
    ⟨_, ⟨none, rfl⟩, Machine.runsTo_of_exec meets executed⟩
  exact ⟨w, reached, stale, accepts, working_fence reached _ (by decide)⟩

/-- A turn is first named before the room is live, and is not recorded. Its echo after the room has
been observed idle shows the room as working. -/
theorem reopened : ∃ w, workingRoom.ReachableUnder Admitted w ∧
    ∃ event, Admitted w event ∧ ¬FencedStep w event (w.step event) := by
  let schedule : List WorkingEvent :=
    [.status true false, .mark true true "s" (some "t"), .announced (some "s") (some false)]
  have meets : workingRoom.Meets Admitted (.start none) schedule := by decide
  have ran : ((workingRoom.exec (.start none) schedule).any fun w =>
      decide (⟨"s", "t", false⟩ ∈ w.stale ∧ Admitted w (.mark true true "s" (some "t")) ∧
        (w.step (.mark true true "s" (some "t"))).room ≠ w.room)) = true := by decide
  obtain ⟨w, executed, facts⟩ := (Option.any_eq_true _ _).mp ran
  obtain ⟨stale, admitted, reopens⟩ := of_decide_eq_true facts
  refine ⟨w, ⟨_, ⟨none, rfl⟩, Machine.runsTo_of_exec meets executed⟩, _, admitted, ?_⟩
  exact fun fenced => reopens (fenced.closed _ _ _ _ rfl stale)

end OutpostPi.App
