import OutpostPi.Lib.Indexed
import OutpostPi.Pi.RoomMetaSystem

/-!
# Agreement of the room metadata at the Pi, the relay and a subscriber

In every run whose steps are in order, a settled state has the Pi's metadata at the relay and at
the subscriber (`agrees_of_inOrder`). Three invariants carry the proof. `Shape` says where the
bound connection and the attempt stand among the connections, and that the transport's copy of
the metadata is the Pi's own. `Traced` says that a session id, model or thinking level that the
Pi has never set is set nowhere behind it, so that leaving such a field out of an update hides
nothing. `Tracks` says that the frames still on their way turn what the relay has into what the
Pi has, and that the last of them brings the subscriber up to date.

Without the condition a cleared field stays set at the relay, and a change made during a
connection attempt never reaches it (`exists_settled_disagreement`).
-/

set_option autoImplicit false

namespace OutpostPi.Pi.RoomMetaAgreement

open OutpostPi.Lib OutpostPi.Relay

variable {site : Site} {s s' : State} {i : Nat} {link link' : Link} {patch : RoomMetaPatch}

/-! ## Links -/

variable {j : Nat} {other : Link}

/-- Changing one connection leaves the others as they were. -/
theorem of_set (links : s'.links = s.links.set i link') (found : s'.links[j]? = some other) :
    j = i ∧ other = link' ∨ j ≠ i ∧ s.links[j]? = some other := by
  rw [links] at found
  exact of_getElem?_set found

/-- Opening a connection leaves the others as they were. -/
theorem of_append (links : s'.links = s.links ++ [link]) (found : s'.links[j]? = some other) :
    j = s.links.length ∧ other = link ∨ j < s.links.length ∧ s.links[j]? = some other := by
  rw [links] at found
  exact of_getElem?_concat found

/-- No later link has stored anything. -/
theorem newestStored_iff :
    s.NewestStored i ↔ ∀ j link, i < j → s.links[j]? = some link → link.stored = false := by
  rw [State.NewestStored]
  constructor
  · intro newest j link later found
    refine newest link (List.mem_iff_getElem?.mpr ⟨j - (i + 1), ?_⟩)
    rw [List.getElem?_drop, Nat.add_sub_cancel' later]
    exact found
  · intro newest link mem
    obtain ⟨k, found⟩ := List.mem_iff_getElem?.mp mem
    rw [List.getElem?_drop] at found
    exact newest (i + 1 + k) link (by omega) found

/-! ## What an operation of the relay does -/

/-- The operations of a relay task with their effects. -/
inductive TaskStep (site : Site) (s : State) (i : Nat) : Link → RelayOp → State → Prop
  | register {hello frames outbox nowMs connections insert} :
    TaskStep site s i ⟨hello, frames, .waiting, outbox⟩ (.register nowMs)
      ({ s with connections := connections }.setLink i
        ⟨hello, frames, .inserted (ofHello site.roomId hello nowMs) insert, outbox⟩)
  | store {hello frames outbox room insert announced}
    (out : ∀ frame ∈ announced, frame = .roomAnnounced site.peerId room) :
    TaskStep site s i ⟨hello, frames, .inserted room insert, outbox⟩ .store
      ({ s with roomState := ⟨s.roomState.rooms.put (site.peerId, room.roomId) room⟩ }.setLink i
        ⟨hello, frames, .serving insert.connId, announced⟩)
  | frame {hello patch frames connId room} (held : s.snapshot site = some room) :
    TaskStep site s i ⟨hello, patch :: frames, .serving connId, []⟩ .frame
      ({ s with
          roomState :=
            ⟨s.roomState.rooms.put (site.peerId, site.roomId) (room.apply patch)⟩ }.setLink i
        ⟨hello, frames, .serving connId,
          if patch.isEmpty then []
          else [.roomMetaUpdated site.peerId site.roomId (room.apply patch).projection]⟩)
  | skip {hello patch frames connId} (unknown : s.snapshot site = none) :
    TaskStep site s i ⟨hello, patch :: frames, .serving connId, []⟩ .frame
      (s.setLink i ⟨hello, frames, .serving connId, []⟩)
  | deliver {hello frames phase frame outbox} :
    TaskStep site s i ⟨hello, frames, phase, frame :: outbox⟩ .deliver
      ({ s with copy := receive s.copy frame }.setLink i ⟨hello, frames, phase, outbox⟩)
  | unregister {hello frames connId connections remove} :
    TaskStep site s i ⟨hello, frames, .serving connId, []⟩ .unregister
      ({ s with connections := connections }.setLink i ⟨hello, frames, .removed remove, []⟩)
  | keep {hello frames outbox remove nowMs} (busy : remove.roomEmptied = false) :
    TaskStep site s i ⟨hello, frames, .removed remove, outbox⟩ (.drop nowMs)
      (s.setLink i ⟨hello, frames, .gone, []⟩)
  | drop {hello frames outbox remove nowMs} (emptied : remove.roomEmptied = true) :
    TaskStep site s i ⟨hello, frames, .removed remove, outbox⟩ (.drop nowMs)
      ({ s with roomState := ⟨s.roomState.rooms.erase (site.peerId, site.roomId)⟩ }.setLink i
        ⟨hello, frames, .gone, [.roomEnded site.peerId site.roomId nowMs]⟩)

variable {op : RelayOp}

theorem taskStep_of_task (ran : site.task s i link op = some s') :
    TaskStep site s i link op s' := by
  obtain ⟨hello, frames, phase, outbox⟩ := link
  -- each task of the relay has one successful branch, but for the frame and the drop
  cases op with
  | register nowMs =>
    cases phase with
    | waiting =>
      cases ran
      exact .register
    | _ => cases ran
  | store =>
    cases phase with
    | inserted room insert =>
      cases ran
      refine .store fun frame mem => ?_
      simp only [RoomStateStore.onConnectionInserted] at mem
      split at mem <;> simp_all
    | _ => cases ran
  | frame =>
    simp only [Site.task] at ran
    split at ran
    · next patch rest connId same =>
      cases same
      split at ran
      · next unknown =>
        cases ran
        exact .skip (Option.map_eq_none_iff.mp unknown)
      · next roomState room patched =>
        cases ran
        obtain ⟨old, held, same⟩ := Option.map_eq_some_iff.mp patched
        cases same
        exact .frame held
    · cases ran
  | deliver =>
    cases outbox with
    | nil => cases ran
    | cons frame rest =>
      cases ran
      exact .deliver
  | unregister =>
    simp only [Site.task] at ran
    split at ran
    · next connId same =>
      cases same
      cases ran
      exact .unregister
    · cases ran
  | drop nowMs =>
    cases phase with
    | removed remove =>
      cases ran
      -- the last connection of a room takes its snapshot along
      cases emptied : remove.roomEmptied with
      | false =>
        have still : s.roomState.onConnectionRemoved site.peerId site.roomId remove nowMs =
            (s.roomState, none) := by
          simp [RoomStateStore.onConnectionRemoved, emptied]
        rw [still]
        exact .keep emptied
      | true =>
        have gone : s.roomState.onConnectionRemoved site.peerId site.roomId remove nowMs =
            (⟨s.roomState.rooms.erase (site.peerId, site.roomId)⟩,
              some ⟨site.roomId, nowMs⟩) := by
          simp [RoomStateStore.onConnectionRemoved, emptied]
        rw [gone]
        exact .drop emptied
    | _ => cases ran

/-- The operations that write the snapshot from the data of their connection. -/
def Acts : RelayOp → Prop
  | .store => True
  | .frame => True
  | _ => False

/-- What every operation keeps of its connection: the hello, the order of the frames, and that
the snapshot has been stored. -/
structure Follows (link link' : Link) : Prop where
  hello : link'.hello = link.hello
  frames : link'.frames <:+ link.frames
  stored : link.stored = true → link'.stored = true

/-- An operation changes one connection and nothing of the Pi. -/
structure AtRelay (s s' : State) (i : Nat) (link' : Link) : Prop where
  links : s'.links = s.links.set i link'
  myRoomMeta : s'.myRoomMeta = s.myRoomMeta
  roomMeta : s'.roomMeta = s.roomMeta
  relay : s'.relay = s.relay
  attempt : s'.attempt = s.attempt

/-- An operation of the relay concerns one link, which goes on. -/
theorem atRelay_of_taskStep (step : TaskStep site s i link op s') :
    ∃ link', AtRelay s s' i link' ∧ Follows link link' ∧ (Acts op → link'.stored = true) := by
  cases step <;>
    refine ⟨_, ⟨rfl, rfl, rfl, rfl, rfl⟩, ⟨rfl, ?_, fun stored => ?_⟩, fun acts => ?_⟩
  all_goals first
    | exact List.suffix_refl _
    | exact List.suffix_cons _ _
    | exact stored
    | rfl
    | exact acts.elim

/-- Every connection after an operation continues one from before it. -/
theorem follows_of_atRelay (found : s.links[i]? = some link) (atRelay : AtRelay s s' i link')
    (follows : Follows link link') (here : s'.links[j]? = some other) :
    ∃ old, s.links[j]? = some old ∧ Follows old other := by
  rcases of_set atRelay.links here with ⟨rfl, rfl⟩ | ⟨-, same⟩
  · exact ⟨link, found, follows⟩
  · exact ⟨other, same, ⟨rfl, List.suffix_refl _, id⟩⟩

/-- The link is where it was. -/
theorem here_of_atRelay (found : s.links[i]? = some link) (atRelay : AtRelay s s' i link') :
    s'.links[i]? = some link' := by
  rw [atRelay.links, getElem?_set_of_some found]

/-- Every connection from before an operation is continued. -/
theorem continued_of_atRelay {old : Link} (found : s.links[i]? = some link)
    (atRelay : AtRelay s s' i link') (follows : Follows link link')
    (before : s.links[j]? = some old) : ∃ other, s'.links[j]? = some other ∧ Follows old other := by
  by_cases same : j = i
  · subst same
    obtain rfl : link = old := Option.some.inj (found.symm.trans before)
    exact ⟨link', here_of_atRelay found atRelay, follows⟩
  · refine ⟨old, ?_, ⟨rfl, List.suffix_refl _, id⟩⟩
    rw [atRelay.links, List.getElem?_set_ne (Ne.symm same), before]

/-! ## The snapshot -/

theorem snapshot_insert {rooms : Map RoomKey RoomMeta} {roomId : RoomId} {room : RoomMeta}
    (here : roomId = site.roomId)
    (roomState : s.roomState = ⟨rooms.put (site.peerId, roomId) room⟩) :
    s.snapshot site = some room := by
  subst here
  rw [State.snapshot, roomState]
  exact Map.lookup_put ..

theorem snapshot_erase {rooms : Map RoomKey RoomMeta}
    (roomState : s.roomState = ⟨rooms.erase (site.peerId, site.roomId)⟩) :
    s.snapshot site = none := by
  rw [State.snapshot, roomState]
  exact AList.lookup_erase _ _

/-! ## What the Pi does -/

/-- The effect of `publish`: the patch is applied to both copies of the metadata, and its sent
form is queued on the bound connection. -/
structure Published (s s' : State) (patch : RoomMetaPatch) : Prop where
  myRoomMeta : s'.myRoomMeta = s.myRoomMeta.assign patch
  roomMeta : s'.roomMeta = s.roomMeta.assign (sent patch)
  relay : s'.relay = s.relay
  attempt : s'.attempt = s.attempt
  roomState : s'.roomState = s.roomState
  copy : s'.copy = s.copy
  links :
    s'.links = s.links ∧ (∀ i, s.relay = some i → s.links[i]? = none) ∨
      ∃ i link, s.relay = some i ∧ s.links[i]? = some link ∧
        s'.links = s.links.set i { link with frames := link.frames ++ [sent patch] }

/-- What `publish` does, whether it sends the patch or not. -/
theorem published (s : State) (patch : RoomMetaPatch) : Published s (s.publish patch) patch := by
  unfold State.publish State.sendControl
  dsimp only
  split
  · next unbound =>
    exact ⟨rfl, rfl, rfl, rfl, rfl, rfl, Or.inl ⟨rfl, by simp [unbound]⟩⟩
  · next i bound =>
    split
    · next missing =>
      refine ⟨rfl, rfl, rfl, rfl, rfl, rfl, Or.inl ⟨rfl, fun j hit => ?_⟩⟩
      cases bound.symm.trans hit
      exact missing
    · next link found =>
      exact ⟨rfl, rfl, rfl, rfl, rfl, rfl, Or.inr ⟨i, link, bound, found, rfl⟩⟩

/-- Publishing changes a connection only by appending the sent patch to its frames. -/
theorem of_published (step : Published s s' patch) (found : s'.links[j]? = some other) :
    s.links[j]? = some other ∨
      ∃ old, s.relay = some j ∧ s.links[j]? = some old ∧
        other = { old with frames := old.frames ++ [sent patch] } := by
  rcases step.links with ⟨same, -⟩ | ⟨i, link, bound, here, links⟩
  · exact Or.inl (same ▸ found)
  · rcases of_set links found with ⟨rfl, rfl⟩ | ⟨-, same⟩
    · exact Or.inr ⟨link, bound, here, rfl⟩
    · exact Or.inl same

/-! ## Shape -/

/-- The bound connection and the attempt are the newest connection, no frame precedes the end
of an attempt, and the metadata that the relay has comes from the hello of a connection. -/
structure Shape (site : Site) (s : State) : Prop where
  same : s.roomMeta = s.myRoomMeta
  bound : ∀ i, s.relay = some i → i + 1 = s.links.length
  trying : ∀ i, s.attempt = some i → i + 1 = s.links.length
  alone : s.relay = none ∨ s.attempt = none
  quiet : ∀ (i : Nat) (link : Link), s.attempt = some i → s.links[i]? = some link → link.frames = []
  named : ∀ (i : Nat) (link : Link), s.links[i]? = some link →
    link.hello.name = s.myRoomMeta.name ∧ link.hello.cwd = s.myRoomMeta.cwd
  opened : ∀ (i : Nat) (link : Link) room insert, s.links[i]? = some link →
    link.phase = .inserted room insert → ∃ nowMs, room = ofHello site.roomId link.hello nowMs
  flagged : ∀ room, s.snapshot site = some room → room.background.isSome = true

/-- A patch never unsets the background flag. -/
theorem flagged_apply {room : RoomMeta} (flagged : room.background.isSome = true) :
    (room.apply patch).background.isSome = true := by
  simp only [RoomMeta.apply]
  cases patch.background with
  | none => exact flagged
  | some active => rfl

/-- A Pi without connections has the shape. -/
theorem shape_start (room : RoomMetadata) (telemetry : SessionTelemetry) :
    Shape site (.start room telemetry) := by
  constructor
  all_goals simp [State.start, State.snapshot, RoomStateStore.new]

/-- A patch that clears nothing keeps the shape. -/
theorem shape_publish (shape : Shape site s) (clears : ClearsNothing s.myRoomMeta patch)
    (step : Published s s' patch) : Shape site s' := by
  have length : s'.links.length = s.links.length := by
    rcases step.links with ⟨same, -⟩ | ⟨i, link, -, -, links⟩
    · rw [same]
    · rw [links, List.length_set]
  constructor
  case same => rw [step.roomMeta, step.myRoomMeta, shape.same, assign_sent clears]
  case bound =>
    rw [step.relay, length]
    exact shape.bound
  case trying =>
    rw [step.attempt, length]
    exact shape.trying
  case alone =>
    rw [step.relay, step.attempt]
    exact shape.alone
  case quiet =>
    intro i link tried found
    rw [step.attempt] at tried
    rcases of_published step found with same | ⟨old, bound, -, -⟩
    · exact shape.quiet i link tried same
    · rcases shape.alone with unbound | idle
      · rw [unbound] at bound
        cases bound
      · rw [idle] at tried
        cases tried
  case named =>
    intro i link found
    rw [step.myRoomMeta]
    rcases of_published step found with same | ⟨old, -, here, rfl⟩
    · exact shape.named i link same
    · exact shape.named i old here
  case opened =>
    intro i link room insert found phase
    rcases of_published step found with same | ⟨old, -, here, rfl⟩
    · exact shape.opened i link room insert same phase
    · exact shape.opened i old room insert here phase
  case flagged =>
    intro room held
    rw [State.snapshot, step.roomState] at held
    exact shape.flagged room held

/-- An operation of the relay keeps the shape. -/
theorem shape_task (shape : Shape site s) (found : s.links[i]? = some link)
    (step : TaskStep site s i link op s') : Shape site s' := by
  obtain ⟨link', atRelay, follows, acted⟩ := atRelay_of_taskStep step
  -- a task replaces a link in its place
  have length : s'.links.length = s.links.length := by rw [atRelay.links, List.length_set]
  constructor
  case same => rw [atRelay.roomMeta, atRelay.myRoomMeta, shape.same]
  case bound =>
    rw [atRelay.relay, length]
    exact shape.bound
  case trying =>
    rw [atRelay.attempt, length]
    exact shape.trying
  case alone =>
    rw [atRelay.relay, atRelay.attempt]
    exact shape.alone
  case quiet =>
    intro j other tried here
    rw [atRelay.attempt] at tried
    obtain ⟨old, before, continues⟩ := follows_of_atRelay found atRelay follows here
    have empty := shape.quiet j old tried before
    exact List.suffix_nil.mp (empty ▸ continues.frames)
  case named =>
    intro j other here
    obtain ⟨old, before, continues⟩ := follows_of_atRelay found atRelay follows here
    rw [atRelay.myRoomMeta, continues.hello]
    exact shape.named j old before
  case opened =>
    intro j other room insert here phase
    cases step with
    | register =>
      rcases of_set (s := s) rfl here with ⟨rfl, rfl⟩ | ⟨-, before⟩
      · cases phase
        exact ⟨_, rfl⟩
      · exact shape.opened j other room insert before phase
    | deliver =>
      rcases of_set (s := s) rfl here with ⟨rfl, rfl⟩ | ⟨-, before⟩
      · have opened := shape.opened j _ room insert found phase
        exact opened
      · exact shape.opened j other room insert before phase
    -- the other tasks leave the phase that holds an opened room
    | _ =>
      rcases of_set (s := s) rfl here with ⟨rfl, rfl⟩ | ⟨-, before⟩
      · cases phase
      · exact shape.opened j other room insert before phase
  case flagged =>
    intro room held
    cases step with
    | store =>
      obtain ⟨nowMs, opened⟩ := shape.opened i _ _ _ found rfl
      rw [snapshot_insert (congrArg RoomMeta.roomId opened) rfl] at held
      cases held
      rw [opened]
      rfl
    | frame before =>
      rw [snapshot_insert rfl rfl] at held
      cases held
      exact flagged_apply (shape.flagged _ before)
    | drop =>
      rw [snapshot_erase rfl] at held
      cases held
    | _ => exact shape.flagged room held

/-! ## Fields never set -/

/-- A frame shows the field as absent. -/
def Clearable.Lacks (field : Clearable) : ServerFrame → Prop
  | .roomAnnounced _ room => field.ofView room.projection = none
  | .roomMetaUpdated _ _ snapshot => field.ofView snapshot = none
  | _ => True

variable {field : Clearable}

theorem ofView_receive {copy : RoomMetaProjection} {frame : ServerFrame}
    (absent : field.ofView copy = none) (lacks : Clearable.Lacks field frame) :
    field.ofView (receive copy frame) = none := by
  cases frame with
  | roomAnnounced => exact lacks
  | roomMetaUpdated peer roomId snapshot =>
    have or_none : ∀ {new old : Option String}, new = none → old = none → new.or old = none := by
      rintro _ _ rfl rfl
      rfl
    cases field <;> exact or_none lacks absent
  | _ => exact absent

/-- The field is absent at the relay, at the subscriber and in between. -/
structure Unseen (site : Site) (s : State) (field : Clearable) : Prop where
  copy : field.ofView s.copy = none
  pending : ∀ (i : Nat) (link : Link), s.links[i]? = some link →
    ∀ frame ∈ link.outbox, Clearable.Lacks field frame
  stored : ∀ room, s.snapshot site = some room → field.ofView room.projection = none

/-- Nothing that a connection has still to bring to the relay sets the field. -/
structure Unsent (link : Link) (field : Clearable) : Prop where
  hello : field.ofView link.hello.shown = none
  frames : ∀ patch ∈ link.frames, field.ofPatch patch = none

/-- The next operation of a task does not set the field. -/
def Silent (link : Link) (field : Clearable) : RelayOp → Prop
  | .store => field.ofView link.hello.shown = none
  | .frame => ∀ patch ∈ link.frames.head?, field.ofPatch patch = none
  | _ => True

theorem Unsent.silent (unsent : Unsent link field) (op : RelayOp) : Silent link field op := by
  cases op with
  | store => exact unsent.hello
  | frame => exact fun patch first => unsent.frames patch (List.mem_of_mem_head? first)
  | _ => trivial

theorem Unsent.follows (unsent : Unsent link field) (follows : Follows link link') :
    Unsent link' field := by
  constructor
  · rw [follows.hello]
    exact unsent.hello
  · exact fun patch mem => unsent.frames patch (follows.frames.subset mem)

/-- A field that nobody has seen stays unseen while its link sends nothing of it. -/
theorem unseen_task (shape : Shape site s) (found : s.links[i]? = some link)
    (step : TaskStep site s i link op s') (unseen : Unseen site s field)
    (silent : Silent link field op) : Unseen site s' field := by
  -- the outbox of one link changes, those of the others stay
  have pending : ∀ {t : State} {other : Link}, t.links = s.links.set i other →
      (∀ frame ∈ other.outbox, Clearable.Lacks field frame) →
      ∀ (j : Nat) (third : Link), t.links[j]? = some third →
        ∀ frame ∈ third.outbox, Clearable.Lacks field frame := by
    intro t other links lacks j third here
    rcases of_set links here with ⟨rfl, rfl⟩ | ⟨-, before⟩
    · exact lacks
    · exact unseen.pending j third before
  cases step with
  | register =>
    have before := unseen.pending i _ found
    exact ⟨unseen.copy, pending rfl before, unseen.stored⟩
  -- a hello announces itself, and is stored: it has to lack the field
  | store out =>
    obtain ⟨nowMs, opened⟩ := shape.opened i _ _ _ found rfl
    refine ⟨unseen.copy, pending rfl fun frame mem => ?_, fun room held => ?_⟩
    · rw [out frame mem, opened]
      exact silent
    · rw [snapshot_insert (congrArg RoomMeta.roomId opened) rfl] at held
      cases held
      rw [opened]
      exact silent
  -- a patched snapshot lacks the field, since the patch does not touch it
  | frame held =>
    have absent := ofView_patched.trans
      ((congrArg (Option.getD · _) (silent _ rfl)).trans (unseen.stored _ held))
    refine ⟨unseen.copy, pending rfl fun frame mem => ?_, fun room after => ?_⟩
    · split at mem
      · cases mem
      · cases List.mem_singleton.mp mem
        exact absent
    · rw [snapshot_insert rfl rfl] at after
      cases after
      exact absent
  | skip => exact ⟨unseen.copy, pending rfl (by simp), unseen.stored⟩
  -- a frame that lacks the field leaves the copy without it
  | deliver =>
    have before := unseen.pending i _ found
    exact ⟨ofView_receive unseen.copy (before _ List.mem_cons_self),
      pending rfl fun frame mem => before frame (List.mem_cons_of_mem _ mem), unseen.stored⟩
  | unregister => exact ⟨unseen.copy, pending rfl (by simp), unseen.stored⟩
  | keep => exact ⟨unseen.copy, pending rfl (by simp), unseen.stored⟩
  | drop =>
    refine ⟨unseen.copy, pending rfl (by simp [Clearable.Lacks]), fun room held => ?_⟩
    rw [snapshot_erase rfl] at held
    cases held

/-- A field that is absent at one stage is absent at every later one: from the Pi's metadata
through the connections in their order to the snapshot and the subscriber. -/
structure Traced (site : Site) (s : State) : Prop where
  notNull : ∀ (field : Clearable) (i : Nat) (link : Link), s.links[i]? = some link →
    ∀ patch ∈ link.frames, field.ofPatch patch ≠ some none
  unset : ∀ field : Clearable, field.ofView s.myRoomMeta.shown = none →
    Unseen site s field ∧
      ∀ (i : Nat) (link : Link), s.links[i]? = some link → Unsent link field
  earlier : ∀ (field : Clearable) (i j : Nat) (link later : Link), i < j →
    s.links[i]? = some link → s.links[j]? = some later →
      field.ofView later.hello.shown = none → Unsent link field
  fresh : ∀ (field : Clearable) (i : Nat) (link : Link), s.links[i]? = some link →
    link.stored = false → s.NewestStored i → field.ofView link.hello.shown = none →
      Unseen site s field
  kept : ∀ (field : Clearable) (room : RoomMeta), s.snapshot site = some room →
    field.ofView room.projection = none → Unseen site s field

/-- There is nothing to trace at the start. -/
theorem traced_start (room : RoomMetadata) (telemetry : SessionTelemetry) :
    Traced site (.start room telemetry) := by
  have unseen : ∀ field : Clearable, Unseen site (.start room telemetry) field := by
    intro field
    refine ⟨by cases field <;> rfl, by simp [State.start], ?_⟩
    simp [State.start, State.snapshot, RoomStateStore.new]
  constructor
  case unset => exact fun field _ => ⟨unseen field, by simp [State.start]⟩
  case fresh => exact fun field _ _ _ _ _ _ => unseen field
  case kept => exact fun field _ _ _ => unseen field
  all_goals simp [State.start]

theorem silent_of_not_acts (field : Clearable) (idle : ¬ Acts op) : Silent link field op := by
  cases op <;> first | trivial | exact absurd trivial idle

/-- A write that is no null leaves a field absent only by not touching it. -/
private theorem of_getD_eq_none {written : Option (Option String)} {old : Option String}
    (notNull : written ≠ some none) (absent : written.getD old = none) :
    written = none ∧ old = none := by
  match written with
  | none => exact ⟨rfl, absent⟩
  | some none => exact absurd rfl notNull
  | some (some value) => cases absent

/-- An operation of the relay keeps the traces. -/
theorem traced_task (shape : Shape site s) (traced : Traced site s)
    (found : s.links[i]? = some link) (step : TaskStep site s i link op s')
    (newest : Acts op → s.NewestStored i) : Traced site s' := by
  obtain ⟨link', atRelay, follows, acted⟩ := atRelay_of_taskStep step
  -- every link continues one that was there before
  have old : ∀ {j : Nat} {other : Link}, s'.links[j]? = some other →
      ∃ before, s.links[j]? = some before ∧ Follows before other :=
    follows_of_atRelay found atRelay follows
  constructor
  case notNull =>
    intro field j other here patch mem
    obtain ⟨before, there, continues⟩ := old here
    exact traced.notNull field j before there patch (continues.frames.subset mem)
  case unset =>
    intro field absent
    rw [atRelay.myRoomMeta] at absent
    obtain ⟨unseen, unsent⟩ := traced.unset field absent
    refine ⟨unseen_task shape found step unseen ((unsent i link found).silent op), ?_⟩
    intro j other here
    obtain ⟨before, there, continues⟩ := old here
    exact (unsent j before there).follows continues
  case earlier =>
    intro field j k first later before here there absent
    obtain ⟨first', here', continues⟩ := old here
    obtain ⟨later', there', continues'⟩ := old there
    rw [continues'.hello] at absent
    exact (traced.earlier field j k first' later' before here' there' absent).follows continues
  case fresh =>
    intro field k other here unstored newestAfter absent
    obtain ⟨before, there, continues⟩ := old here
    rw [continues.hello] at absent
    -- a connection that has not stored yet had not stored before
    have notStored : before.stored = false := by
      by_contra stored
      rw [continues.stored (by simpa using stored)] at unstored
      cases unstored
    have newestBefore : s.NewestStored k := by
      rw [newestStored_iff] at newestAfter ⊢
      intro j third later hit
      obtain ⟨third', hit', continues'⟩ := continued_of_atRelay found atRelay follows hit
      by_contra stored
      have unstored' := newestAfter j third' later hit'
      rw [continues'.stored (by simpa using stored)] at unstored'
      cases unstored'
    refine unseen_task shape found step
      (traced.fresh field k before there notStored newestBefore absent) ?_
    by_cases acts : Acts op
    · -- the connection acted on has stored, so it is older than this one
      have stored := acted acts
      have after := here_of_atRelay found atRelay
      rcases Nat.lt_trichotomy i k with lower | rfl | higher
      · exact (traced.earlier field i k link before lower found there absent).silent op
      · rw [after] at here
        cases here
        rw [stored] at unstored
        cases unstored
      · have unstored' := newestStored_iff.mp newestAfter i link' higher after
        rw [stored] at unstored'
        cases unstored'
    · exact silent_of_not_acts field acts
  case kept =>
    intro field room held absent
    have carry : Unseen site s field → Silent link field op → Unseen site s' field :=
      unseen_task shape found step
    cases step with
    -- a hello that is stored is the snapshot now, and what it lacks was never shown
    | store =>
      obtain ⟨nowMs, opened⟩ := shape.opened i _ _ _ found rfl
      rw [snapshot_insert (congrArg RoomMeta.roomId opened) rfl] at held
      cases held
      rw [opened] at absent
      exact carry (traced.fresh field i _ found rfl (newest trivial) absent) absent
    -- a patch leaves a field absent only if it leaves it untouched
    | frame before =>
      rw [snapshot_insert rfl rfl] at held
      cases held
      rw [projection_apply, ofView_patched] at absent
      have notNull := traced.notNull field i _ found _ List.mem_cons_self
      obtain ⟨untouched, wasAbsent⟩ := of_getD_eq_none notNull absent
      refine carry (traced.kept field _ before wasAbsent) fun patch first => ?_
      cases first
      exact untouched
    | skip unknown =>
      cases unknown.symm.trans held
    | drop =>
      rw [snapshot_erase rfl] at held
      cases held
    | _ => exact carry (traced.kept field room held absent) trivial

/-- A patch that clears nothing leaves a field absent only by not setting it. -/
theorem of_shown_assign {room : RoomMetadata} (clears : ClearsNothing room patch)
    (absent : field.ofView (room.assign patch).shown = none) :
    field.ofView room.shown = none ∧ field.ofPatch (sent patch) = none := by
  rw [← assign_sent clears, shown_assign, ofView_patched] at absent
  exact (of_getD_eq_none ofPatch_sent_ne absent).symm

/-- A patch does not show what nobody has seen. -/
theorem unseen_of_published (step : Published s s' patch) (unseen : Unseen site s field) :
    Unseen site s' field := by
  constructor
  · rw [step.copy]
    exact unseen.copy
  · intro i link found
    rcases of_published step found with same | ⟨old, -, here, rfl⟩
    · exact unseen.pending i link same
    · exact unseen.pending i old here
  · intro room held
    rw [State.snapshot, step.roomState] at held
    exact unseen.stored room held

/-- A patch that clears nothing keeps the traces. -/
theorem traced_publish (shape : Shape site s) (traced : Traced site s)
    (clears : ClearsNothing s.myRoomMeta patch) (step : Published s s' patch) :
    Traced site s' := by
  have old : ∀ {j : Nat} {other : Link}, s'.links[j]? = some other →
      ∃ before, s.links[j]? = some before ∧ other.hello = before.hello ∧
        other.stored = before.stored := by
    intro j other found
    rcases of_published step found with same | ⟨before, -, here, rfl⟩
    · exact ⟨other, same, rfl, rfl⟩
    · exact ⟨before, here, rfl, rfl⟩
  -- publishing stores nothing
  have newest : ∀ {j : Nat}, s'.NewestStored j → s.NewestStored j := by
    intro j after
    rw [newestStored_iff] at after ⊢
    intro k third later found
    rcases step.links with ⟨same, -⟩ | ⟨i, link, -, here, links⟩
    · exact after k third later (by rw [same, found])
    · by_cases same : i = k
      · subst same
        obtain rfl : link = third := Option.some.inj (here.symm.trans found)
        refine after i { link with frames := link.frames ++ [sent patch] } later ?_
        rw [links, getElem?_set_of_some here]
      · refine after k third later ?_
        rw [links, List.getElem?_set_ne same, found]
  constructor
  case notNull =>
    intro field i link found other mem
    rcases of_published step found with same | ⟨before, -, here, rfl⟩
    · exact traced.notNull field i link same other mem
    · rcases List.mem_append.mp mem with among | last
      · exact traced.notNull field i before here other among
      · rw [List.mem_singleton.mp last]
        exact ofPatch_sent_ne
  case unset =>
    intro field absent
    rw [step.myRoomMeta] at absent
    obtain ⟨wasAbsent, untouched⟩ := of_shown_assign clears absent
    obtain ⟨unseen, unsent⟩ := traced.unset field wasAbsent
    refine ⟨unseen_of_published step unseen, fun i link found => ?_⟩
    rcases of_published step found with same | ⟨before, -, here, rfl⟩
    · exact unsent i link same
    -- the patch goes to the bound link only, and does not touch the absent field
    · refine ⟨(unsent i before here).hello, fun other mem => ?_⟩
      rcases List.mem_append.mp mem with among | last
      · exact (unsent i before here).frames other among
      · rw [List.mem_singleton.mp last]
        exact untouched
  case earlier =>
    intro field i j link later before here there absent
    obtain ⟨later', there', hello, -⟩ := old there
    rw [hello] at absent
    rcases of_published step here with same | ⟨first, bound, -, -⟩
    · exact traced.earlier field i j link later' before same there' absent
    · -- only the newest connection is bound
      have last := shape.bound i bound
      have inside := (List.getElem?_eq_some_iff.mp there').1
      omega
  case fresh =>
    intro field i link found unstored newestAfter absent
    obtain ⟨before, here, hello, stored⟩ := old found
    rw [hello] at absent
    rw [stored] at unstored
    exact unseen_of_published step
      (traced.fresh field i before here unstored (newest newestAfter) absent)
  case kept =>
    intro field room held absent
    rw [State.snapshot, step.roomState] at held
    exact unseen_of_published step (traced.kept field room held absent)

/-! ## The connection attempts -/

/-- A step of the Pi that leaves the connections and the relay as they are. -/
structure OnlyPi (s s' : State) : Prop where
  myRoomMeta : s'.myRoomMeta = s.myRoomMeta
  links : s'.links = s.links
  roomState : s'.roomState = s.roomState
  copy : s'.copy = s.copy

theorem unseen_congr (copy : s'.copy = s.copy) (roomState : s'.roomState = s.roomState)
    (links : ∀ (i : Nat) (link : Link), s'.links[i]? = some link →
      s.links[i]? = some link ∨ link.outbox = []) (unseen : Unseen site s field) :
    Unseen site s' field := by
  constructor
  · rw [copy]
    exact unseen.copy
  · intro i link found frame mem
    rcases links i link found with same | empty
    · exact unseen.pending i link same frame mem
    · rw [empty] at mem
      cases mem
  · intro room held
    rw [State.snapshot, roomState] at held
    exact unseen.stored room held

/-- What changes at the Pi alone keeps the traces. -/
theorem traced_congr (same : OnlyPi s s') (traced : Traced site s) : Traced site s' := by
  have unseen : ∀ {field : Clearable}, Unseen site s field → Unseen site s' field :=
    unseen_congr same.copy same.roomState fun i link found => Or.inl (same.links ▸ found)
  constructor
  case notNull =>
    rw [same.links]
    exact traced.notNull
  case unset =>
    rw [same.links, same.myRoomMeta]
    exact fun field absent => ⟨unseen (traced.unset field absent).1, (traced.unset field absent).2⟩
  case earlier =>
    rw [same.links]
    exact traced.earlier
  case fresh =>
    simp only [State.NewestStored, same.links]
    exact fun field i link found unstored newest absent =>
      unseen (traced.fresh field i link found unstored newest absent)
  case kept =>
    intro field room held absent
    rw [State.snapshot, same.roomState] at held
    exact unseen (traced.kept field room held absent)

/-- A new link starts without traces. -/
theorem traced_connect (shape : Shape site s) (traced : Traced site s)
    (step : s' = { s with
      attempt := some s.links.length
      links := s.links ++ [⟨s.roomMeta, [], .waiting, []⟩] }) : Traced site s' := by
  have links : s'.links = s.links ++ [⟨s.roomMeta, [], .waiting, []⟩] := by rw [step]
  have unseen : ∀ {field : Clearable}, Unseen site s field → Unseen site s' field := by
    intro field
    refine unseen_congr (by rw [step]) (by rw [step]) fun i link found => ?_
    rcases of_append links found with ⟨-, rfl⟩ | ⟨-, same⟩
    · exact Or.inr rfl
    · exact Or.inl same
  have newest : ∀ {j : Nat}, s'.NewestStored j → s.NewestStored j := by
    intro j after link mem
    refine after link ?_
    rw [links, List.drop_append]
    exact List.mem_append_left _ mem
  have unsent : ∀ {field : Clearable}, field.ofView s.myRoomMeta.shown = none →
      Unsent ⟨s.roomMeta, [], .waiting, []⟩ field := by
    intro field absent
    refine ⟨?_, by simp⟩
    rw [shape.same]
    exact absent
  constructor
  case notNull =>
    intro field i link found
    rcases of_append links found with ⟨-, rfl⟩ | ⟨-, same⟩
    · simp
    · exact traced.notNull field i link same
  -- a new connection has sent nothing but its hello
  case unset =>
    intro field absent
    have before : field.ofView s.myRoomMeta.shown = none := by
      rw [step] at absent
      exact absent
    refine ⟨unseen (traced.unset field before).1, fun i link found => ?_⟩
    rcases of_append links found with ⟨-, rfl⟩ | ⟨-, same⟩
    · exact unsent before
    · exact (traced.unset field before).2 i link same
  case earlier =>
    intro field i j link later before here there absent
    rcases of_append links there with ⟨rfl, rfl⟩ | ⟨inside, there'⟩
    · -- the hello of a new connection carries the metadata of the Pi
      rw [shape.same] at absent
      rcases of_append links here with ⟨rfl, -⟩ | ⟨-, here'⟩
      · exact absurd before (Nat.lt_irrefl _)
      · exact (traced.unset field absent).2 i link here'
    · rcases of_append links here with ⟨rfl, -⟩ | ⟨-, here'⟩
      · omega
      · exact traced.earlier field i j link later before here' there' absent
  case fresh =>
    intro field i link found unstored newestAfter absent
    rcases of_append links found with ⟨-, rfl⟩ | ⟨-, same⟩
    · rw [shape.same] at absent
      exact unseen (traced.unset field absent).1
    · exact unseen (traced.fresh field i link same unstored (newest newestAfter) absent)
  case kept =>
    intro field room held absent
    have before : s.snapshot site = some room := by
      rw [step] at held
      exact held
    exact unseen (traced.kept field room before absent)

/-! ## Frames on their way -/

/-- A frame on its way will be broadcast. -/
def Link.HasUpdate (link : Link) : Prop := ∃ patch ∈ link.frames, patch.isEmpty = false

/-- The frames of a connection take the relay's snapshot to a projection. -/
def Brings (site : Site) (s : State) (link : Link) (goal : RoomMetaProjection) : Prop :=
  match link.phase with
  | .waiting => link.frames.foldl RoomMetaProjection.patched link.hello.shown = goal
  | .inserted _ _ => link.frames.foldl RoomMetaProjection.patched link.hello.shown = goal
  | .serving _ =>
    ∃ room, s.snapshot site = some room ∧ room.name = some link.hello.name ∧
      room.cwd = some link.hello.cwd ∧
      link.frames.foldl RoomMetaProjection.patched room.projection = goal
  | _ => True

/-- The subscriber has the snapshot, is about to receive it, or will receive a later one. -/
def Shows (site : Site) (s : State) (link : Link) : Prop :=
  match link.phase with
  | .waiting => link.HasUpdate
  | .inserted _ _ => link.HasUpdate
  | .serving _ =>
    link.HasUpdate ∨
      ∀ room, s.snapshot site = some room → link.outbox.foldl receive s.copy = room.projection
  | _ => True

/-- The bound connection brings the relay and the subscriber to the Pi's metadata, and an
attempt brings the relay to the metadata of its hello. -/
structure Tracks (site : Site) (s : State) : Prop where
  bound : ∀ (i : Nat) (link : Link), s.relay = some i → s.links[i]? = some link →
    Brings site s link s.myRoomMeta.shown ∧ Shows site s link
  trying : ∀ (i : Nat) (link : Link), s.attempt = some i → s.links[i]? = some link →
    Brings site s link link.hello.shown

variable {goal : RoomMetaProjection}

theorem brings_congr (roomState : s'.roomState = s.roomState) (brings : Brings site s link goal) :
    Brings site s' link goal := by
  simp only [Brings, State.snapshot, roomState] at brings ⊢
  exact brings

theorem shows_congr (roomState : s'.roomState = s.roomState) (copy : s'.copy = s.copy)
    (showing : Shows site s link) : Shows site s' link := by
  simp only [Shows, State.snapshot, roomState, copy] at showing ⊢
  exact showing

/-- Further frames take the goal further. -/
theorem brings_append (frames : List RoomMetaPatch) (brings : Brings site s link goal) :
    Brings site s { link with frames := link.frames ++ frames }
      (frames.foldl RoomMetaProjection.patched goal) := by
  obtain ⟨hello, before, phase, outbox⟩ := link
  cases phase with
  | waiting =>
    change before.foldl _ _ = goal at brings
    change (before ++ frames).foldl _ _ = _
    rw [List.foldl_append, brings]
  | inserted =>
    change before.foldl _ _ = goal at brings
    change (before ++ frames).foldl _ _ = _
    rw [List.foldl_append, brings]
  | serving =>
    obtain ⟨room, held, name, cwd, reaches⟩ := brings
    refine ⟨room, held, name, cwd, ?_⟩
    rw [List.foldl_append, reaches]
  | _ => trivial

theorem shows_append (frames : List RoomMetaPatch) (showing : Shows site s link) :
    Shows site s { link with frames := link.frames ++ frames } := by
  have more : link.HasUpdate →
      Link.HasUpdate { link with frames := link.frames ++ frames } := by
    rintro ⟨patch, mem, nonempty⟩
    exact ⟨patch, List.mem_append_left _ mem, nonempty⟩
  obtain ⟨hello, before, phase, outbox⟩ := link
  cases phase with
  | waiting => exact more showing
  | inserted => exact more showing
  | serving => exact showing.imp more id
  | _ => trivial

theorem shows_of_hasUpdate (update : link.HasUpdate) : Shows site s link := by
  obtain ⟨hello, frames, phase, outbox⟩ := link
  cases phase with
  | serving => exact Or.inl update
  | waiting => exact update
  | inserted => exact update
  | _ => trivial

/-- What is published is on its way to the relay. -/
theorem tracks_publish (shape : Shape site s) (tracks : Tracks site s)
    (clears : ClearsNothing s.myRoomMeta patch) (step : Published s s' patch) :
    Tracks site s' := by
  have shown : s'.myRoomMeta.shown = s.myRoomMeta.shown.patched (sent patch) := by
    rw [step.myRoomMeta, ← assign_sent clears, shown_assign]
  constructor
  case bound =>
    intro i link bound found
    rw [step.relay] at bound
    rcases step.links with ⟨same, missing⟩ | ⟨j, old, bound', here, links⟩
    · rw [same, missing i bound] at found
      cases found
    · cases bound.symm.trans bound'
      rw [links, getElem?_set_of_some here] at found
      cases found
      obtain ⟨brings, showing⟩ := tracks.bound i old bound here
      rw [shown]
      exact ⟨brings_congr step.roomState (brings_append [sent patch] brings),
        shows_congr step.roomState step.copy (shows_append [sent patch] showing)⟩
  case trying =>
    intro i link tried found
    rw [step.attempt] at tried
    rcases of_published step found with same | ⟨old, bound, -, -⟩
    · exact brings_congr step.roomState (tracks.trying i link tried same)
    · rcases shape.alone with unbound | idle
      · cases unbound.symm.trans bound
      · cases idle.symm.trans tried

/-- An operation in order leaves the snapshot and the copy alone when a later connection has
stored. -/
theorem still_of_later (inOrder : InOrder s (.relay i op)) (found : s.links[i]? = some link)
    (step : TaskStep site s i link op s') (later : i < j) (there : s.links[j]? = some other)
    (stored : other.stored = true) : s'.roomState = s.roomState ∧ s'.copy = s.copy := by
  have refused : ¬ s.NewestStored i := by
    intro newest
    have unstored := newestStored_iff.mp newest j other later there
    rw [stored] at unstored
    cases unstored
  cases step with
  | store => exact absurd inOrder refused
  | frame => exact absurd inOrder refused
  | deliver => exact absurd inOrder refused
  | drop emptied =>
    refine absurd (inOrder ?_) refused
    rw [found]
    exact emptied
  | _ => exact ⟨rfl, rfl⟩

/-- What a link brings is still brought, or stored by now. -/
theorem brings_task (shape : Shape site s) (found : s.links[i]? = some link)
    (step : TaskStep site s i link op s') (after : s'.links[i]? = some link')
    (brings : Brings site s link goal) : Brings site s' link' goal := by
  have inside := (List.getElem?_eq_some_iff.mp found).1
  have here : ∀ {other : Link}, (s.links.set i other)[i]? = some link' → other = link' := by
    intro other hit
    rw [List.getElem?_set_self inside] at hit
    exact Option.some.inj hit
  cases step with
  | register =>
    obtain rfl := here after
    exact brings
  | store =>
    obtain rfl := here after
    obtain ⟨nowMs, opened⟩ := shape.opened i _ _ _ found rfl
    refine ⟨_, snapshot_insert (congrArg RoomMeta.roomId opened) rfl, ?_, ?_, ?_⟩
    · rw [opened]
      rfl
    · rw [opened]
      rfl
    · rw [opened]
      exact brings
  | frame held =>
    obtain rfl := here after
    obtain ⟨room, held', name, cwd, reaches⟩ := brings
    cases held.symm.trans held'
    exact ⟨_, snapshot_insert rfl rfl, name, cwd, reaches⟩
  | skip unknown =>
    obtain ⟨room, held, -⟩ := brings
    cases unknown.symm.trans held
  | @deliver hello frames phase =>
    obtain rfl := here after
    cases phase <;> exact brings
  | unregister =>
    obtain rfl := here after
    trivial
  | keep =>
    obtain rfl := here after
    trivial
  | drop =>
    obtain rfl := here after
    trivial

/-- What a link shows stays shown by what is on its way. -/
theorem shows_task (shape : Shape site s) (traced : Traced site s')
    (found : s.links[i]? = some link) (step : TaskStep site s i link op s')
    (after : s'.links[i]? = some link') (showing : Shows site s link) : Shows site s' link' := by
  have inside := (List.getElem?_eq_some_iff.mp found).1
  have here : ∀ {other : Link}, (s.links.set i other)[i]? = some link' → other = link' := by
    intro other hit
    rw [List.getElem?_set_self inside] at hit
    exact Option.some.inj hit
  cases step with
  | register =>
    obtain rfl := here after
    exact showing
  | store =>
    obtain rfl := here after
    exact Or.inl showing
  | @frame hello patch frames connId room held =>
    obtain rfl := here after
    cases nonempty : patch.isEmpty with
    | true =>
      -- nothing is broadcast, and nothing has changed
      rcases showing with ⟨update, mem, updates⟩ | current
      · rcases List.mem_cons.mp mem with rfl | later
        · rw [nonempty] at updates
          cases updates
        · exact Or.inl ⟨update, later, updates⟩
      · refine Or.inr fun room' held' => ?_
        rw [snapshot_insert rfl rfl] at held'
        cases held'
        rw [RoomStateStore.apply_of_isEmpty nonempty]
        exact current room held
    | false =>
      refine Or.inr fun room' held' => ?_
      have same := held'
      rw [snapshot_insert rfl rfl] at same
      cases same
      exact applyTo_eq (flagged_apply (shape.flagged room held)) fun field absent =>
        (traced.kept field _ held' absent).copy
  | skip unknown =>
    obtain rfl := here after
    exact Or.inr fun room held => by cases unknown.symm.trans held
  | @deliver hello frames phase =>
    obtain rfl := here after
    cases phase <;> exact showing
  | unregister =>
    obtain rfl := here after
    trivial
  | keep =>
    obtain rfl := here after
    trivial
  | drop =>
    obtain rfl := here after
    trivial

/-- An operation of the relay keeps track of what was published. -/
theorem tracks_task (shape : Shape site s) (traced : Traced site s') (tracks : Tracks site s)
    (inOrder : InOrder s (.relay i op)) (found : s.links[i]? = some link)
    (step : TaskStep site s i link op s') : Tracks site s' := by
  obtain ⟨link', atRelay, follows, -⟩ := atRelay_of_taskStep step
  have after := here_of_atRelay found atRelay
  -- another connection that is still tracked is newer, so the relay serves it undisturbed
  have elsewhere : ∀ {j : Nat} {other : Link}, j + 1 = s.links.length → j ≠ i →
      s.links[j]? = some other → ∀ goal, (Brings site s other goal → Brings site s' other goal) ∧
        (Shows site s other → Shows site s' other) := by
    intro j other last distinct there goal
    have inside := (List.getElem?_eq_some_iff.mp found).1
    cases stored : other.stored with
    | true =>
      obtain ⟨roomState, copy⟩ :=
        still_of_later inOrder found step (show i < j by omega) there stored
      exact ⟨brings_congr roomState, shows_congr roomState copy⟩
    | false =>
      obtain ⟨hello, frames, phase, outbox⟩ := other
      cases phase with
      | waiting => exact ⟨id, id⟩
      | inserted => exact ⟨id, id⟩
      | _ => cases stored
  constructor
  case bound =>
    intro j other bound there
    rw [atRelay.relay] at bound
    rw [atRelay.myRoomMeta]
    rcases of_set atRelay.links there with ⟨rfl, rfl⟩ | ⟨distinct, before⟩
    · obtain ⟨brings, showing⟩ := tracks.bound j link bound found
      exact ⟨brings_task shape found step after brings,
        shows_task shape traced found step after showing⟩
    · obtain ⟨brings, showing⟩ := tracks.bound j other bound before
      obtain ⟨keeps, keepsShowing⟩ := elsewhere (shape.bound j bound) distinct before _
      exact ⟨keeps brings, keepsShowing showing⟩
  case trying =>
    intro j other tried there
    rw [atRelay.attempt] at tried
    rcases of_set atRelay.links there with ⟨rfl, rfl⟩ | ⟨distinct, before⟩
    · rw [follows.hello]
      exact brings_task shape found step after (tracks.trying j link tried found)
    · exact (elsewhere (shape.trying j tried) distinct before _).1
        (tracks.trying j other tried before)

/-! ## The end of an attempt -/

/-- The patches sent again carry no null that is left out. -/
theorem ofPatch_republished {working background : Bool} {published : SessionTelemetry}
    (mem : patch ∈ republished working background published) (field : Clearable) :
    field.ofPatch patch = none := by
  simp only [republished, List.mem_append, List.mem_cons, List.not_mem_nil, or_false] at mem
  rcases mem with (rfl | rfl) | among
  · cases field <;> rfl
  · cases field <;> rfl
  · split at among
    · cases among
    · rw [List.mem_singleton.mp among]
      cases field <;> rfl

theorem clearsNothing_of_untouched (room : RoomMetadata)
    (untouched : ∀ field : Clearable, field.ofPatch patch = none) : ClearsNothing room patch := by
  refine ⟨fun null => ?_, fun null => ?_, fun null => ?_⟩
  · cases (untouched .model).symm.trans null
  · cases (untouched .thinking).symm.trans null
  · cases (untouched .sessionId).symm.trans null

theorem sent_of_untouched (untouched : ∀ field : Clearable, field.ofPatch patch = none) :
    sent patch = patch := by
  obtain ⟨model, thinking, sessionId⟩ := patch
  obtain rfl : model = none := untouched .model
  obtain rfl : thinking = none := untouched .thinking
  obtain rfl : sessionId = none := untouched .sessionId
  rfl

/-- What a list of such patches does to the Pi and to its bound connection. -/
theorem publishAll_bound (patches : List RoomMetaPatch) (shape : Shape site s)
    (traced : Traced site s)
    (untouched : ∀ patch ∈ patches, ∀ field : Clearable, field.ofPatch patch = none)
    (bound : s.relay = some i) (found : s.links[i]? = some link) :
    Shape site (s.publishAll patches) ∧ Traced site (s.publishAll patches) ∧
      (s.publishAll patches).relay = some i ∧ (s.publishAll patches).attempt = s.attempt ∧
      (s.publishAll patches).roomState = s.roomState ∧
      (s.publishAll patches).links[i]? =
        some { link with frames := link.frames ++ patches } ∧
      (s.publishAll patches).myRoomMeta.shown =
        patches.foldl RoomMetaProjection.patched s.myRoomMeta.shown := by
  induction patches generalizing s link with
  | nil =>
    refine ⟨shape, traced, bound, rfl, rfl, ?_, rfl⟩
    rw [List.append_nil]
    exact found
  | cons patch patches ih =>
    have keeps := untouched patch List.mem_cons_self
    have clears := clearsNothing_of_untouched s.myRoomMeta keeps
    have step := published s patch
    have next : (s.publish patch).links[i]? =
        some { link with frames := link.frames ++ [patch] } := by
      rcases step.links with ⟨-, missing⟩ | ⟨j, old, bound', here, links⟩
      · cases found.symm.trans (missing i bound)
      · cases bound.symm.trans bound'
        cases found.symm.trans here
        rw [links, getElem?_set_of_some here,
          sent_of_untouched keeps]
    obtain ⟨shape', traced', bound', attempt, roomState, links, shown⟩ :=
      ih (shape_publish shape clears step) (traced_publish shape traced clears step)
        (fun later mem => untouched later (List.mem_cons_of_mem _ mem))
        (step.relay.trans bound) next
    refine ⟨shape', traced', bound', attempt.trans step.attempt,
      roomState.trans step.roomState, ?_, ?_⟩
    · rw [← List.append_cons] at links
      exact links
    · rw [step.myRoomMeta, shown_assign] at shown
      exact shown

/-! ## Runs -/

/-- What holds in every state of a run in order. -/
structure Invariant (site : Site) (s : State) : Prop where
  shape : Shape site s
  traced : Traced site s
  tracks : Tracks site s

/-- The invariant holds at the start. -/
theorem invariant_start (room : RoomMetadata) (telemetry : SessionTelemetry) :
    Invariant site (.start room telemetry) :=
  ⟨shape_start room telemetry, traced_start room telemetry,
    ⟨by simp [State.start], by simp [State.start]⟩⟩

/-- A patch that clears nothing keeps the invariant. -/
theorem invariant_publish (invariant : Invariant site s)
    (clears : ClearsNothing s.myRoomMeta patch) : Invariant site (s.publish patch) :=
  have step := published s patch
  ⟨shape_publish invariant.shape clears step,
    traced_publish invariant.shape invariant.traced clears step,
    tracks_publish invariant.shape invariant.tracks clears step⟩

/-- A new connection keeps the invariant. -/
theorem invariant_connect (invariant : Invariant site s) (unbound : s.relay = none) :
    Invariant site { s with
      attempt := some s.links.length
      links := s.links ++ [⟨s.roomMeta, [], .waiting, []⟩] } := by
  obtain ⟨shape, traced, tracks⟩ := invariant
  refine ⟨?_, traced_connect shape traced rfl, ⟨fun i link bound => ?_, ?_⟩⟩
  · constructor
    case same => exact shape.same
    case bound =>
      intro i bound
      cases unbound.symm.trans bound
    case trying =>
      rintro i ⟨⟩
      simp
    case alone => exact Or.inl unbound
    case quiet =>
      rintro i link ⟨⟩ found
      rw [List.getElem?_concat_length] at found
      cases found
      rfl
    case named =>
      intro i link found
      rcases of_append (s := s) rfl found with ⟨-, rfl⟩ | ⟨-, same⟩
      · rw [shape.same]
        exact ⟨rfl, rfl⟩
      · exact shape.named i link same
    case opened =>
      intro i link room insert found phase
      rcases of_append (s := s) rfl found with ⟨-, rfl⟩ | ⟨-, same⟩
      · cases phase
      · exact shape.opened i link room insert same phase
    case flagged => exact shape.flagged
  · cases unbound.symm.trans bound
  · rintro i link ⟨⟩ found
    rw [List.getElem?_concat_length] at found
    cases found
    rfl

/-- A hello whose fields differ only in what is published again keeps the invariant. -/
theorem invariant_connected (invariant : Invariant site s) (tried : s.attempt = some i)
    (differ : ∀ link, s.links[i]? = some link →
      DifferInRepublished s.telemetry link.hello.shown s.myRoomMeta.shown)
    (working background : Bool) :
    Invariant site ({ s with attempt := none, relay := some i }.publishAll
      (republished working background s.telemetry)) := by
  have last := invariant.shape.trying i tried
  obtain ⟨link, found⟩ : ∃ link, s.links[i]? = some link :=
    ⟨_, List.getElem?_eq_getElem (by omega)⟩
  have shape : Shape site { s with attempt := none, relay := some i } := by
    constructor
    case bound =>
      rintro j ⟨⟩
      exact last
    case trying => rintro j ⟨⟩
    case alone => exact Or.inr rfl
    case quiet => rintro j other ⟨⟩
    case same => exact invariant.shape.same
    case named => exact invariant.shape.named
    case opened => exact invariant.shape.opened
    case flagged => exact invariant.shape.flagged
  have traced : Traced site { s with attempt := none, relay := some i } :=
    traced_congr (s := s) ⟨rfl, rfl, rfl, rfl⟩ invariant.traced
  have brings := invariant.tracks.trying i link tried found
  obtain ⟨shape', traced', bound, attempt, roomState, links, shown⟩ :=
    publishAll_bound (republished working background s.telemetry) shape traced
      (fun patch mem => ofPatch_republished mem) rfl found
  refine ⟨shape', traced', ⟨fun j other bound' there => ?_, fun j other tried' => ?_⟩⟩
  · cases bound.symm.trans bound'
    cases links.symm.trans there
    constructor
    · rw [shown, ← foldl_republished (differ link found) working background]
      exact brings_congr roomState (brings_append _ brings)
    · refine shows_of_hasUpdate ⟨workingPatch working, ?_, rfl⟩
      exact List.mem_append_right _ List.mem_cons_self
  · cases attempt.symm.trans tried'

/-- Every step in order keeps the invariant. -/
theorem invariant_step {a : Action} (invariant : Invariant site s) (inOrder : InOrder s a)
    (taken : site.step s a = some s') : Invariant site s' := by
  obtain ⟨shape, traced, tracks⟩ := invariant
  cases a with
  | publish patch =>
    cases taken
    exact invariant_publish ⟨shape, traced, tracks⟩ inOrder
  | sample candidate =>
    cases taken
    have noted : Invariant site { s with telemetry := s.telemetry.noted candidate } :=
      ⟨{ shape with },
        traced_congr (s := s) ⟨rfl, rfl, rfl, rfl⟩ traced, ⟨tracks.bound, tracks.trying⟩⟩
    split
    · exact noted
    · refine invariant_publish noted (clearsNothing_of_untouched _ fun field => ?_)
      cases field <;> rfl
  | reset =>
    cases taken
    exact ⟨{ shape with },
      traced_congr (s := s) ⟨rfl, rfl, rfl, rfl⟩ traced, ⟨tracks.bound, tracks.trying⟩⟩
  | connect =>
    simp only [Site.step] at taken
    obtain ⟨idle, rfl⟩ := Machine.of_guard taken
    exact invariant_connect ⟨shape, traced, tracks⟩ idle.1
  | connectFailed =>
    simp only [Site.step] at taken
    split at taken
    · cases taken
    · next tried =>
      cases taken
      -- there is no bound connection during an attempt
      have unbound := shape.alone.resolve_right tried
      refine ⟨⟨shape.same, shape.bound, ?_, Or.inr rfl, ?_, shape.named, shape.opened,
          shape.flagged⟩, traced_congr (s := s) ⟨rfl, rfl, rfl, rfl⟩ traced,
        ⟨fun i link bound => ?_, ?_⟩⟩
      · rintro i ⟨⟩
      · rintro i link ⟨⟩
      · cases unbound.symm.trans bound
      · rintro i link ⟨⟩
  | connected working background =>
    simp only [Site.step] at taken
    split at taken
    · cases taken
    · next i tried =>
      cases taken
      refine invariant_connected ⟨shape, traced, tracks⟩ tried (fun link found => ?_) working
        background
      refine inOrder link ?_
      rw [tried]
      exact found
  | closed =>
    simp only [Site.step] at taken
    split at taken
    · cases taken
    · cases taken
      refine ⟨⟨shape.same, ?_, shape.trying, Or.inl rfl, shape.quiet, shape.named, shape.opened,
          shape.flagged⟩, traced_congr (s := s) ⟨rfl, rfl, rfl, rfl⟩ traced,
        ⟨?_, tracks.trying⟩⟩
      · rintro i ⟨⟩
      · rintro i link ⟨⟩
  | relay i op =>
    obtain ⟨link, found, ran⟩ := Option.bind_eq_some_iff.mp taken
    have step := taskStep_of_task ran
    have newest : Acts op → s.NewestStored i := by
      intro acts
      cases op with
      | store => exact inOrder
      | frame => exact inOrder
      | _ => exact acts.elim
    have traced' := traced_task shape traced found step newest
    exact ⟨shape_task shape found step, traced',
      tracks_task shape traced' tracks inOrder found step⟩

/-- The invariant holds in every state of a run in order. -/
theorem invariant_of_reachable (reached : site.system.ReachableUnder InOrder s) :
    Invariant site s := by
  refine reached.invariant ?_ fun t a t' invariant inOrder taken =>
    invariant_step invariant inOrder taken
  rintro t ⟨room, telemetry, rfl⟩
  exact invariant_start room telemetry

/-- In every run in order, whenever the Pi is connected and its frames are processed, the relay
and the subscriber hold the Pi's metadata. -/
theorem agrees_of_inOrder (site : Site) (s : State)
    (reached : site.system.ReachableUnder InOrder s) (settled : s.Settled) : s.Agrees site := by
  obtain ⟨shape, traced, tracks⟩ := invariant_of_reachable reached
  obtain ⟨link, at_, serves, noFrames, noOutbox⟩ := settled
  obtain ⟨i, bound, found⟩ := Option.bind_eq_some_iff.mp at_
  obtain ⟨brings, showing⟩ := tracks.bound i link bound found
  obtain ⟨name, cwd⟩ := shape.named i link found
  obtain ⟨hello, frames, phase, outbox⟩ := link
  obtain rfl : frames = [] := noFrames
  obtain rfl : outbox = [] := noOutbox
  cases phase with
  | serving =>
    obtain ⟨room, held, roomName, roomCwd, shown⟩ := brings
    rw [name] at roomName
    rw [cwd] at roomCwd
    refine ⟨⟨room, held, roomName, roomCwd, shown⟩, ?_⟩
    rcases showing with ⟨patch, mem, -⟩ | current
    · cases mem
    · exact (current room held).trans shown
  | _ => cases serves

/-! ## Runs on fixed inputs -/

/-- A room of one Pi. -/
def exampleSite : Site := ⟨"pi", "room", "device", .channel 8⟩

/-- Its metadata at the start of the Pi. -/
def exampleRoom : RoomMetadata :=
  ⟨"work", "/work", some "session", some "small", none, none, some false, none, none, none⟩

/-- The patch of the model alone. -/
def modelPatch (model : Option String) : RoomMetaPatch :=
  ⟨some model, none, none, none, none, none, none, none⟩

/-- Connection `i` is registered and announced if it is the first. -/
def opening (i : Nat) (nowMs : Int) : List Action :=
  [.connect, .relay i (.register nowMs), .relay i .store]

/-- The relay reads one frame of connection `i` and broadcasts its effect. -/
def handled (i : Nat) : List Action := [.relay i .frame, .relay i .deliver]

/-- A connection with a change of the model and a sample, its end, and a second connection. -/
def orderlyRun : List Action :=
  opening 0 1 ++ [.relay 0 .deliver, .connected true false] ++ handled 0 ++ handled 0 ++
    [.publish (modelPatch (some "large")), .sample ⟨some (some "main"), some (some 7), none⟩] ++
    handled 0 ++ handled 0 ++
    [.closed, .relay 0 .unregister, .relay 0 (.drop 2), .relay 0 .deliver] ++
    opening 1 3 ++ [.relay 1 .deliver, .connected false true] ++
    handled 1 ++ handled 1 ++ handled 1

/-- A Pi changes its model, loses the connection and comes back. -/
theorem agrees_of_inOrder_reconnect : ∃ s,
    exampleSite.system.exec (.start exampleRoom .unsampled) orderlyRun = some s ∧
      s.myRoomMeta.model = some "large" ∧ s.Agrees exampleSite := by
  have meets : exampleSite.system.Meets InOrder (.start exampleRoom .unsampled) orderlyRun := by
    decide +kernel
  have ran : (exampleSite.system.exec (.start exampleRoom .unsampled) orderlyRun).any
      (fun s => decide (s.Settled ∧ s.myRoomMeta.model = some "large")) = true := by
    decide +kernel
  obtain ⟨s, executed, facts⟩ := (Option.any_eq_true _ _).mp ran
  obtain ⟨settled, model⟩ := of_decide_eq_true facts
  exact ⟨s, executed, model, agrees_of_inOrder exampleSite s
    ⟨_, ⟨exampleRoom, .unsampled, rfl⟩, Machine.runsTo_of_exec meets executed⟩ settled⟩

/-- The model is cleared while the Pi is connected. -/
def clearingRun : List Action :=
  opening 0 1 ++ [.relay 0 .deliver, .connected false false] ++ handled 0 ++ handled 0 ++
    [.publish (modelPatch none), .relay 0 .frame]

/-- The model changes while a connection attempt is in flight. -/
def changeInAttemptRun : List Action :=
  [.connect, .publish (modelPatch (some "large")), .relay 0 (.register 1), .relay 0 .store,
    .relay 0 .deliver, .connected false false] ++ handled 0 ++ handled 0

/-- The relay registers a connection that the Pi has given up after a later one. -/
def lateRegistrationRun : List Action :=
  [.connect, .connectFailed, .publish (modelPatch (some "large"))] ++ opening 1 1 ++
    [.relay 1 .deliver, .connected false false] ++ handled 1 ++ handled 1 ++
    [.relay 0 (.register 2), .relay 0 .store]

/-- At the end of the run every frame is processed, and the copies differ. -/
def EndsInDisagreement (run : List Action) : Prop :=
  ∃ s, exampleSite.system.Reachable s ∧
    exampleSite.system.exec (.start exampleRoom .unsampled) run = some s ∧
    s.Settled ∧ (∀ link ∈ s.links, link.frames = [] ∧ link.outbox = []) ∧
    ¬ s.Agrees exampleSite

/-- The Pi is connected and every frame is processed, but the relay's snapshot or the
subscriber's copy differs from the Pi's metadata. -/
theorem exists_settled_disagreement : EndsInDisagreement clearingRun ∧
    EndsInDisagreement changeInAttemptRun ∧ EndsInDisagreement lateRegistrationRun := by
  have ends (run : List Action)
      (ran : (exampleSite.system.exec (.start exampleRoom .unsampled) run).any
        (fun s => decide (s.Settled ∧
          (∀ link ∈ s.links, link.frames = [] ∧ link.outbox = []) ∧
          ¬ s.Agrees exampleSite)) = true) : EndsInDisagreement run := by
    obtain ⟨s, executed, facts⟩ := (Option.any_eq_true _ _).mp ran
    exact ⟨s, Machine.reachable_of_exec ⟨exampleRoom, .unsampled, rfl⟩ executed, executed,
      of_decide_eq_true facts⟩
  exact ⟨ends _ (by decide +kernel), ends _ (by decide +kernel), ends _ (by decide +kernel)⟩

end OutpostPi.Pi.RoomMetaAgreement
