import OutpostPi.App.OwnerOutbox
import OutpostPi.Lib.Tickets

/-!
# Owner prompts are neither lost nor brought back

`Account` relates the records of the outbox to what has happened: a prompt whose record was written
has it still, or has had it removed by a conclusion of the session that it was aimed at, and a
removed record does not come back. Every call keeps it in the runs of `Backed`
(`owner_prompts_conserved`).
-/

set_option autoImplicit false

namespace OutpostPi.App.OwnerOutbox

open OutpostPi.Lib

/-! ## Records -/

section Records

variable {box : Outbox} {record delivery : PendingOwnerDelivery} {id sessionId : String}

theorem holds_iff : box.holds delivery = true ↔ ∃ record ∈ box, record.key = delivery.key := by
  simp [Outbox.holds]

theorem id_of_key (same : record.key = delivery.key) : record.id = delivery.id := by
  simp only [PendingOwnerDelivery.key, Prod.mk.injEq] at same
  exact same.2.2

/-- A record that is replaced keeps its id. -/
theorem ids_upsert_of_holds (holds : box.holds delivery = true) :
    (box.upsert delivery).map PendingOwnerDelivery.id = box.map PendingOwnerDelivery.id := by
  rw [Outbox.upsert, if_pos holds, List.map_map]
  apply List.map_congr_left
  intro record _
  rw [Function.comp_apply]
  split
  · next same => exact (id_of_key same).symm
  · rfl

/-- A record of a new prompt goes behind the others. -/
theorem upsert_of_new (new : ∀ record ∈ box, record.id ≠ delivery.id) :
    box.upsert delivery = box ++ [delivery] := by
  rw [Outbox.upsert, if_neg]
  intro holds
  obtain ⟨record, mem, same⟩ := holds_iff.mp holds
  exact new record mem (id_of_key same)

/-- A confirmation takes away the record of the prompt in its session only. -/
theorem mem_removeConfirmed : record ∈ box.removeConfirmed id sessionId ↔
    record ∈ box ∧ ¬ (record.id = id ∧ record.targetSessionId = some sessionId) := by
  rw [Outbox.removeConfirmed, List.mem_filter, Outbox.confirmedBy, Bool.not_eq_true',
    decide_eq_false_iff_not]

end Records

/-! ## The account -/

/-- The event leaves the prompts alone: it neither accepts one nor brings one back nor removes
one. -/
structure Event.Quiet (event : Event) : Prop where
  accepts : ∀ id, event ≠ .accepted id
  revives : ∀ id, event.revives id = false
  removes : event.removedId = none

/-- What the records and the written ids have to do with what has happened. -/
structure Account (box : Outbox) (saved : List String) (history : List Event) : Prop where
  nodup : (box.map PendingOwnerDelivery.id).Nodup
  known : ∀ record ∈ box, record.id ∈ saved
  gone : ∀ delivery, .removed delivery ∈ history →
    delivery.id ∈ saved ∧ ∀ record ∈ box, record.id ≠ delivery.id
  there : ∀ id ∈ saved, (∃ record ∈ box, record.id = id) ∨
    ∃ delivery, .removed delivery ∈ history ∧ delivery.id = id
  accepted : ∀ id, .accepted id ∈ history → id ∈ saved
  concluded : ∀ delivery, .removed delivery ∈ history → ∃ sessionId,
    delivery.targetSessionId = some sessionId ∧ Concludes history delivery.id sessionId
  final : NoneRevived history

section Account

variable {box : Outbox} {saved : List String} {history : List Event} {event : Event}
  {delivery : PendingOwnerDelivery} {id sessionId : String}

/-- What has been concluded stays so. -/
theorem Concludes.mono {history' : List Event} (concludes : Concludes history id sessionId)
    (more : history ⊆ history') : Concludes history' id sessionId := by
  rcases concludes with confirmed | cancelled | failed
  · exact Or.inl (more confirmed)
  · exact Or.inr (Or.inl (more cancelled))
  · exact Or.inr (Or.inr (more failed))

theorem removedId_eq_some {event : Event} (removes : event.removedId = some id) :
    ∃ delivery, event = .removed delivery ∧ delivery.id = id := by
  cases event with
  | removed delivery => exact ⟨delivery, rfl, Option.some_inj.mp removes⟩
  | _ => cases removes

namespace Account

/-- Nothing has happened yet. -/
theorem nil : Account [] [] [] := by
  constructor <;> simp [NoneRevived]

/-- An event that removes nothing, and brings nothing back that was removed. -/
theorem push (x : Account box saved history) (removes : event.removedId = none)
    (accepts : ∀ id, event = .accepted id → id ∈ saved)
    (revives : ∀ delivery, .removed delivery ∈ history → event.revives delivery.id = false) :
    Account box saved (event :: history) where
  nodup := x.nodup
  known := x.known
  gone := by
    intro delivery mem
    rcases List.mem_cons.mp mem with rfl | mem
    · cases removes
    · exact x.gone delivery mem
  there := by
    intro id mem
    rcases x.there id mem with held | ⟨delivery, removed, same⟩
    · exact Or.inl held
    · exact Or.inr ⟨delivery, List.mem_cons_of_mem _ removed, same⟩
  accepted := by
    intro id mem
    rcases List.mem_cons.mp mem with same | mem
    · exact accepts id same.symm
    · exact x.accepted id mem
  concluded := by
    intro delivery mem
    rcases List.mem_cons.mp mem with rfl | mem
    · cases removes
    · obtain ⟨sessionId, target, concludes⟩ := x.concluded delivery mem
      exact ⟨sessionId, target, concludes.mono (List.subset_cons_self _ _)⟩
  final := by
    refine List.pairwise_cons.mpr ⟨?_, x.final⟩
    intro earlier mem id removed
    obtain ⟨delivery, rfl, rfl⟩ := removedId_eq_some removed
    exact revives delivery mem

/-- Quiet events do not change the account. -/
theorem pushAll (x : Account box saved history) {events : List Event}
    (quiet : ∀ event ∈ events, event.Quiet) : Account box saved (events ++ history) := by
  induction events with
  | nil => exact x
  | cons event events ih =>
    have first := quiet event List.mem_cons_self
    have rest := ih fun other mem => quiet other (List.mem_cons_of_mem _ mem)
    apply rest.push first.removes
    · intro id same
      exact absurd same (first.accepts id)
    · intro delivery _
      exact first.revives delivery.id

/-- A prompt is accepted once its record has been written. -/
theorem accept (x : Account box saved history) (mem : id ∈ saved) :
    Account box saved (.accepted id :: history) := by
  apply x.push rfl
  · intro other same
    obtain rfl := Event.accepted.inj same
    exact mem
  · exact fun _ _ => rfl

/-- A prompt that has its record was not removed. -/
theorem send (x : Account box saved history) {message : UserMessage}
    (holds : box.holds delivery = true) (same : message.id = delivery.id) :
    Account box saved (.sent message :: history) := by
  apply x.push rfl
  · exact nofun
  · intro gone removed
    obtain ⟨record, mem, key⟩ := holds_iff.mp holds
    have apart := (x.gone gone removed).2 record mem
    rw [id_of_key key, ← same] at apart
    exact decide_eq_false apart

/-- The first record of a prompt. -/
theorem save (x : Account box saved history) (new : delivery.id ∉ saved) :
    Account (box.upsert delivery) (saved ++ [delivery.id]) (.stored delivery :: history) := by
  -- the id is new, so the record is added and replaces none
  have fresh : ∀ record ∈ box, record.id ≠ delivery.id := by
    intro record mem same
    exact new (same ▸ x.known record mem)
  have pushed : Account box saved (.stored delivery :: history) := by
    apply x.push rfl
    · exact nofun
    · intro gone removed
      apply decide_eq_false
      intro same
      exact new (same ▸ (x.gone gone removed).1)
  rw [upsert_of_new fresh]
  constructor
  · rw [List.map_append, List.nodup_append]
    refine ⟨x.nodup, List.nodup_singleton _, ?_⟩
    intro a inBox b inNew
    obtain ⟨record, mem, rfl⟩ := List.mem_map.mp inBox
    obtain rfl : b = delivery.id := by simpa using inNew
    exact fresh record mem
  · intro record mem
    rcases List.mem_append.mp mem with mem | mem
    · exact List.mem_append_left _ (x.known record mem)
    · rw [List.mem_singleton.mp mem]
      exact List.mem_append_right _ List.mem_cons_self
  · intro gone removed
    obtain ⟨known, absent⟩ := pushed.gone gone removed
    refine ⟨List.mem_append_left _ known, ?_⟩
    intro record mem
    rcases List.mem_append.mp mem with mem | mem
    · exact absent record mem
    · rw [List.mem_singleton.mp mem]
      intro same
      exact new (same ▸ known)
  · intro id mem
    rcases List.mem_append.mp mem with mem | mem
    · rcases pushed.there id mem with ⟨record, held, same⟩ | removed
      · exact Or.inl ⟨record, List.mem_append_left _ held, same⟩
      · exact Or.inr removed
    · obtain rfl := List.mem_singleton.mp mem
      exact Or.inl ⟨delivery, List.mem_append_right _ List.mem_cons_self, rfl⟩
  · intro id accepted
    exact List.mem_append_left _ (pushed.accepted id accepted)
  · exact pushed.concluded
  · exact pushed.final

/-- A record that is there is written again. -/
theorem store (x : Account box saved history) (holds : box.holds delivery = true) :
    Account (box.upsert delivery) saved (.stored delivery :: history) := by
  obtain ⟨held, mem, key⟩ := holds_iff.mp holds
  have pushed : Account box saved (.stored delivery :: history) := by
    apply x.push rfl
    · exact nofun
    · intro gone removed
      have apart := (x.gone gone removed).2 held mem
      rw [id_of_key key] at apart
      exact decide_eq_false apart
  have ids := ids_upsert_of_holds holds
  have same_ids : ∀ id, (∃ record ∈ box.upsert delivery, record.id = id) ↔
      ∃ record ∈ box, record.id = id := by
    intro id
    rw [← List.mem_map, ids, List.mem_map]
  exact { pushed with
    nodup := by
      rw [ids]
      exact x.nodup
    known record inBox := by
      obtain ⟨old, inOld, same⟩ := (same_ids record.id).mp ⟨record, inBox, rfl⟩
      exact same ▸ x.known old inOld
    gone gone removed := by
      obtain ⟨known, absent⟩ := pushed.gone gone removed
      refine ⟨known, ?_⟩
      intro record inBox same
      obtain ⟨old, inOld, same'⟩ := (same_ids gone.id).mp ⟨record, inBox, same⟩
      exact absent old inOld same'
    there id inSaved := by
      rw [same_ids]
      exact pushed.there id inSaved }

/-- A conclusion of a session removes the record that is aimed at it. -/
theorem remove (x : Account box saved history) (concludes : Concludes history id sessionId) :
    Account (box.removeConfirmed id sessionId) saved
      ((box.filter (Outbox.confirmedBy id sessionId)).map .removed ++ history) := by
  have taken : ∀ delivery, .removed delivery ∈
      (box.filter (Outbox.confirmedBy id sessionId)).map Event.removed →
        delivery ∈ box ∧ delivery.id = id ∧ delivery.targetSessionId = some sessionId := by
    intro delivery mem
    obtain ⟨record, inBox, same⟩ := List.mem_map.mp mem
    obtain rfl := Event.removed.inj same
    simpa [Outbox.confirmedBy] using List.mem_filter.mp inBox
  have left : ∀ record ∈ box.removeConfirmed id sessionId, record ∈ box :=
    fun record mem => (mem_removeConfirmed.mp mem).1
  constructor
  · exact (List.filter_sublist.map _).nodup x.nodup
  · exact fun record mem => x.known record (left record mem)
  · intro delivery mem
    rcases List.mem_append.mp mem with now | before
    · obtain ⟨inBox, same, target⟩ := taken delivery now
      refine ⟨x.known delivery inBox, ?_⟩
      -- another record of that id would be the same one
      intro record mem' same'
      obtain ⟨inBox', kept⟩ := mem_removeConfirmed.mp mem'
      obtain rfl := List.inj_on_of_nodup_map x.nodup inBox' inBox same'
      exact kept ⟨same, target⟩
    · obtain ⟨known, absent⟩ := x.gone delivery before
      exact ⟨known, fun record mem' => absent record (left record mem')⟩
  · intro other inSaved
    rcases x.there other inSaved with ⟨record, inBox, same⟩ | ⟨delivery, removed, same⟩
    · by_cases concluded : record.id = id ∧ record.targetSessionId = some sessionId
      · refine Or.inr ⟨record, List.mem_append_left _ (List.mem_map_of_mem ?_), same⟩
        exact List.mem_filter.mpr ⟨inBox, by simpa [Outbox.confirmedBy] using concluded⟩
      · exact Or.inl ⟨record, mem_removeConfirmed.mpr ⟨inBox, concluded⟩, same⟩
    · exact Or.inr ⟨delivery, List.mem_append_right _ removed, same⟩
  · intro other mem
    rcases List.mem_append.mp mem with now | before
    · obtain ⟨record, -, same⟩ := List.mem_map.mp now
      cases same
    · exact x.accepted other before
  · intro delivery mem
    rcases List.mem_append.mp mem with now | before
    · obtain ⟨-, rfl, target⟩ := taken delivery now
      exact ⟨sessionId, target, concludes.mono (List.subset_append_right _ _)⟩
    · obtain ⟨other, target, concludes'⟩ := x.concluded delivery before
      exact ⟨other, target, concludes'.mono (List.subset_append_right _ _)⟩
  · refine List.pairwise_append.mpr ⟨?_, x.final, ?_⟩
    · rw [List.pairwise_map]
      exact List.pairwise_of_forall fun _ _ _ _ => rfl
    · intro later inNew earlier _ other _
      obtain ⟨record, -, rfl⟩ := List.mem_map.mp inNew
      rfl

end Account

end Account

/-! ## Calls -/

/-- What a call knows of the prompts that it is about. -/
def Task.Sound (saved : List String) (history : List Event) : Task → Prop
  | .saveHeld id stored => stored = true → id ∈ saved
  | .save send stored => stored = true → send.prompt.id ∈ saved
  | .replay _ ref ids => ∀ id ∈ ids, Concludes history id ref.sessionId
  | .confirm ids sessionId => ∀ id ∈ ids, Concludes history id sessionId
  | _ => True

/-- The prompt of which the call has still to write the first record. -/
def Task.unsaved : Task → Option String
  | .submit send => some send.prompt.id
  | _ => none

/-- What a task relies on stays true as the history grows. -/
theorem Task.Sound.mono {task : Task} {saved saved' : List String} {history history' : List Event}
    (x : task.Sound saved history) (more : saved ⊆ saved') (later : history ⊆ history') :
    task.Sound saved' history' := by
  cases task with
  | saveHeld id stored => exact fun written => more (x written)
  | save send stored => exact fun written => more (x written)
  | replay generation ref ids => exact fun id mem => (x id mem).mono later
  | confirm ids sessionId => exact fun id mem => (x id mem).mono later
  | _ => trivial

def Sync.Accounts (s : Sync) : Prop := Account s.outbox s.saved s.history

/-- What a step of a call leaves behind, which writes first records of the new ids and has none to
write after it. -/
structure Follows (s : Sync) (new : List String) (result : Sync × Option Task) : Prop where
  account : result.1.Accounts
  ids : result.1.ids = s.ids
  saved : result.1.saved = s.saved ++ new
  history : s.history ⊆ result.1.history
  task : ∀ task ∈ result.2, task.Sound result.1.saved result.1.history ∧ task.unsaved = none

namespace Follows

variable {s t : Sync} {task : Option Task} {new : List String} {result : Sync × Option Task}

/-- The records and what has happened are as they were. -/
theorem of_same (x : s.Accounts) (ids : t.ids = s.ids) (outbox : t.outbox = s.outbox)
    (saved : t.saved = s.saved) (history : t.history = s.history)
    (sound : ∀ next ∈ task, next.Sound s.saved s.history ∧ next.unsaved = none) :
    Follows s [] (t, task) where
  account := by
    rw [Sync.Accounts, outbox, saved, history]
    exact x
  ids := ids
  saved := by rw [saved, List.append_nil]
  history := by rw [history]; exact List.Subset.refl _
  task := by
    rw [saved, history]
    exact sound

/-- The call ends. -/
theorem ended (x : s.Accounts) (ids : t.ids = s.ids) (outbox : t.outbox = s.outbox)
    (saved : t.saved = s.saved) (history : t.history = s.history) : Follows s [] (t, none) :=
  of_same x ids outbox saved history fun _ mem => absurd mem (Option.not_mem_none _)

theorem done (x : s.Accounts) : Follows s [] (s, none) :=
  ended x rfl rfl rfl rfl

/-- A step that only changes other fields may come first. -/
theorem trans (ids : t.ids = s.ids) (saved : t.saved = s.saved) (history : t.history = s.history)
    (x : Follows t new result) : Follows s new result :=
  ⟨x.account, ids ▸ x.ids, saved ▸ x.saved, history ▸ x.history, x.task⟩

/-- A step leaves no prompt to be written for the first time. -/
theorem unsaved (x : Follows s new result) : result.2.bind Task.unsaved = none := by
  cases next : result.2 with
  | none => rfl
  | some task => exact (x.task task next).2

end Follows

section Calls

variable {s : Sync} {pass : Pass} {delivery : PendingOwnerDelivery}
  {pending rest : List PendingOwnerDelivery} {stores : Bool}

/-! ### Recovery -/

/-- A delivery that is still there is aimed at the session of the pass. -/
theorem follows_takeUp (x : s.Accounts)
    (backs : delivery.targetSessionId = some pass.ref.sessionId ∨ s.outbox.holds delivery = true) :
    Follows s [] (s.takeUp pass delivery rest stores) := by
  rw [Sync.takeUp]
  split
  · exact Follows.of_same x rfl rfl rfl rfl (by rintro _ ⟨⟩; exact ⟨trivial, rfl⟩)
  · next elsewhere =>
    have held : s.outbox.holds (delivery.target pass.ref.sessionId) = true :=
      backs.resolve_left elsewhere
    cases stores with
    | true =>
      refine ⟨Account.store x held, rfl, (List.append_nil _).symm,
        List.subset_cons_self _ _, ?_⟩
      rintro _ ⟨⟩
      exact ⟨trivial, rfl⟩
    | false => exact Follows.of_same x rfl rfl rfl rfl (by rintro _ ⟨⟩; exact ⟨trivial, rfl⟩)

/-- A pass goes on with a delivery that is still there. -/
theorem follows_deliverNext (x : s.Accounts) (backs : s.backsNext pass pending = true) :
    Follows s [] (s.deliverNext pass pending stores) := by
  rw [Sync.deliverNext]
  split
  · next original rest next =>
    apply follows_takeUp x
    rw [Sync.backsNext, next] at backs
    simpa using backs
  · exact Follows.done x

/-- A pass goes on after a failure. -/
theorem follows_deliverAfterFailure (x : s.Accounts)
    (backs : (s.forget delivery.id).backsNext pass rest = true) :
    Follows s [] (s.deliverAfterFailure pass delivery rest stores) := by
  rw [Sync.deliverAfterFailure]
  have forgotten : (s.forget delivery.id).Accounts := x
  refine Follows.trans (t := s.forget delivery.id) rfl rfl rfl ?_
  split
  · exact follows_deliverNext forgotten backs
  · exact Follows.done forgotten

theorem ensure_ids (generation : Nat) :
    (s.ensureOwnerDeliveryRecoveryGeneration generation).ids = s.ids := by
  rw [Sync.ensureOwnerDeliveryRecoveryGeneration]; split <;> rfl

theorem ensure_outbox (generation : Nat) :
    (s.ensureOwnerDeliveryRecoveryGeneration generation).outbox = s.outbox := by
  rw [Sync.ensureOwnerDeliveryRecoveryGeneration]; split <;> rfl

theorem ensure_saved (generation : Nat) :
    (s.ensureOwnerDeliveryRecoveryGeneration generation).saved = s.saved := by
  rw [Sync.ensureOwnerDeliveryRecoveryGeneration]; split <;> rfl

theorem ensure_history (generation : Nat) :
    (s.ensureOwnerDeliveryRecoveryGeneration generation).history = s.history := by
  rw [Sync.ensureOwnerDeliveryRecoveryGeneration]; split <;> rfl

/-- A pass begins by reading the outbox, and writes nothing. -/
theorem follows_recover (x : s.Accounts) : Follows s [] s.recoverPendingOwnerDeliveries := by
  rw [Sync.recoverPendingOwnerDeliveries]
  split
  · split
    · exact Follows.of_same x (ensure_ids _) (ensure_outbox _) (ensure_saved _) (ensure_history _)
        (by rintro _ ⟨⟩; exact ⟨trivial, rfl⟩)
    · exact Follows.done x
  · exact Follows.done x

/-! ### Resuming -/

/-- What the session has concluded may be removed. -/
theorem follows_remove (x : s.Accounts) {ids : List String} {id sessionId : String}
    (concludes : ∀ other ∈ id :: ids, Concludes s.history other sessionId) :
    Follows s [] (s.removeConfirmed id sessionId, some (.confirm ids sessionId)) := by
  refine ⟨?_, rfl, (List.append_nil _).symm, List.subset_append_right _ _, ?_⟩
  · exact Account.remove x (concludes id List.mem_cons_self)
  · rintro _ ⟨⟩
    refine ⟨?_, rfl⟩
    intro other mem
    exact (concludes other (List.mem_cons_of_mem _ mem)).mono (List.subset_append_right _ _)

/-- The transcript has the prompt, whose record is written now. -/
theorem follows_submit {send : Send} (outcome : Outcome) (x : s.Accounts)
    (fresh : send.prompt.id ∉ s.saved) : ∃ new, (new = [] ∨ new = [send.prompt.id]) ∧
      Follows s new (s.resume outcome (.submit send)) := by
  rw [Sync.resume]
  split
  · cases stores : outcome.stores with
    | true =>
      refine ⟨[send.prompt.id], Or.inr rfl, Account.save x fresh, rfl, rfl,
        List.subset_cons_self _ _, ?_⟩
      rintro _ ⟨⟩
      exact ⟨fun _ => List.mem_append_right _ List.mem_cons_self, rfl⟩
    | false =>
      refine ⟨[], Or.inl rfl, Follows.of_same x rfl rfl rfl rfl ?_⟩
      rintro _ ⟨⟩
      exact ⟨nofun, rfl⟩
  · exact ⟨[], Or.inl rfl, Follows.done x⟩

/-- The prompt of a written record is accepted. -/
theorem follows_accept (x : s.Accounts) {id : String} (mem : id ∈ s.saved) :
    Follows s [] (s.record (.accepted id), none) :=
  ⟨Account.accept x mem, rfl, (List.append_nil _).symm, List.subset_cons_self _ _,
    fun _ none => absurd none (Option.not_mem_none _)⟩

/-- A prompt whose record is there is sent. -/
theorem follows_send (x : s.Accounts) {message : UserMessage} {task : Task}
    (holds : s.outbox.holds delivery = true) (same : message.id = delivery.id)
    (sound : task.Sound s.saved (.sent message :: s.history)) (last : task.unsaved = none) :
    Follows s [] (s.record (.sent message), some task) := by
  refine ⟨Account.send x holds same, rfl, (List.append_nil _).symm, List.subset_cons_self _ _, ?_⟩
  rintro _ ⟨⟩
  exact ⟨sound, last⟩

/-- A task goes on, if what it is about to write or send is backed. -/
theorem follows_resume {task : Task} {outcome : Outcome} (x : s.Accounts)
    (sound : task.Sound s.saved s.history) (last : task.unsaved = none)
    (backs : s.backs outcome task = true) : Follows s [] (s.resume outcome task) := by
  -- one case for each task that waits, by what its operation came back with
  cases task with
  | saveHeld id stored =>
    rw [Sync.resume]
    split
    · next written => exact follows_accept x (sound written)
    · exact Follows.done x
  | submit send => cases last
  | save send stored =>
    rw [Sync.resume]
    split
    · next written =>
      have accepted := follows_accept x (sound written)
      dsimp only
      split
      · next sends =>
        have held : s.outbox.holds send.delivery = true := by
          simpa [Sync.backs, written, sends] using backs
        -- accepted, and sent in the same breath: two entries of the history
        have sent : Follows (s.record (.accepted send.prompt.id)) []
            ((s.record (.accepted send.prompt.id)).record (.sent send.message),
              some (.transmit send)) :=
          follows_send accepted.account held rfl trivial rfl
        refine ⟨sent.account, rfl, sent.saved, ?_, sent.task⟩
        exact List.Subset.trans accepted.history sent.history
      · exact accepted
    · exact Follows.done x
  | transmit send =>
    rw [Sync.resume]
    split
    · exact Follows.ended x (ensure_ids _) (ensure_outbox _) (ensure_saved _) (ensure_history _)
    · exact Follows.done x
  | list pass pending =>
    rw [Sync.resume]
    split
    · exact follows_deliverNext x backs
    · exact Follows.done x
  | retarget pass delivery rest stored =>
    rw [Sync.resume]
    split
    · split
      · exact Follows.of_same x rfl rfl rfl rfl (by rintro _ ⟨⟩; exact ⟨trivial, rfl⟩)
      · exact Follows.done x
    · next failed =>
      apply follows_deliverAfterFailure x
      simpa [Sync.backs, failed] using backs
  | append pass delivery rest =>
    rw [Sync.resume]
    split
    · next completes =>
      split
      · next goes =>
        have held : s.outbox.holds delivery = true := by
          simpa [Sync.backs, completes, goes] using backs
        exact follows_send x held rfl trivial rfl
      · exact Follows.done x
    · next fails =>
      apply follows_deliverAfterFailure x
      simpa [Sync.backs, fails] using backs
  | resend pass delivery rest =>
    rw [Sync.resume]
    split
    · next completes =>
      split
      · apply follows_deliverNext x
        simpa [Sync.backs, completes] using backs
      · exact Follows.done x
    · next fails =>
      apply follows_deliverAfterFailure x
      simpa [Sync.backs, fails] using backs
  -- a replay and a confirmation remove what they name, one id after another
  | replay generation ref ids =>
    cases ids with
    | nil => exact Follows.done x
    | cons id ids =>
      rw [Sync.resume]
      split
      · exact follows_remove x sound
      · exact Follows.done x
  | confirm ids sessionId =>
    cases ids with
    | nil => exact Follows.done x
    | cons id ids =>
      rw [Sync.resume]
      split
      · exact follows_remove x sound
      · exact Follows.done x

/-! ### Starting -/

/-- A frame of the session concludes prompts, which are then removed. -/
theorem follows_conclude (x : s.Accounts) (events : List Event)
    (quiet : ∀ event ∈ events, event.Quiet) {task : Task}
    (sound : task.Sound s.saved (events ++ s.history)) (last : task.unsaved = none) :
    Follows s [] ({ s with history := events ++ s.history }, some task) := by
  refine ⟨Account.pushAll x quiet, rfl, (List.append_nil _).symm,
    List.subset_append_right _ _, ?_⟩
  rintro _ ⟨⟩
  exact ⟨sound, last⟩

theorem quiet_confirmed (id sessionId : String) : (Event.confirmed id sessionId).Quiet :=
  ⟨nofun, fun _ => rfl, rfl⟩

theorem quiet_cancelled (id sessionId : String) : (Event.cancelled id sessionId).Quiet :=
  ⟨nofun, fun _ => rfl, rfl⟩

theorem quiet_failed (id sessionId : String) : (Event.failed id sessionId).Quiet :=
  ⟨nofun, fun _ => rfl, rfl⟩

/-- The echo of a prompt concludes it. -/
theorem follows_userInput (x : s.Accounts) (id sessionId : String) :
    Follows s [] (s.userInput id sessionId) := by
  rw [Sync.userInput]
  split
  · next ref _ =>
    refine follows_conclude x [.confirmed id ref.sessionId] ?_ ?_ rfl
    · intro event mem
      rw [List.mem_singleton.mp mem]
      exact quiet_confirmed id ref.sessionId
    · intro other mem
      rw [List.mem_singleton.mp mem]
      exact Or.inl List.mem_cons_self
  · exact Follows.done x

/-- A history concludes the prompts that are in it. -/
theorem follows_sessionHistory (x : s.Accounts) (ids : List String) (sessionId : String) :
    Follows s [] (s.sessionHistory ids sessionId) := by
  rw [Sync.sessionHistory]
  split
  · next ref _ =>
    refine follows_conclude x _ ?_ ?_ rfl
    · intro event mem
      obtain ⟨id, -, rfl⟩ := List.mem_map.mp mem
      exact quiet_confirmed id ref.sessionId
    · intro id mem
      exact Or.inl (List.mem_append_left _ (List.mem_map_of_mem mem))
  · exact Follows.done x

/-- A cancellation concludes its prompt and the steering prompt. -/
theorem follows_cancelled (x : s.Accounts) (targetId sessionId : String)
    (pendingSteeringId : Option String) :
    Follows s [] (s.cancelled targetId sessionId pendingSteeringId) := by
  rw [Sync.cancelled]
  split
  · next ref _ =>
    refine follows_conclude x _ ?_ ?_ rfl
    · intro event mem
      obtain ⟨id, -, rfl⟩ := List.mem_map.mp mem
      exact quiet_cancelled id ref.sessionId
    · intro id mem
      exact Or.inr (Or.inl (List.mem_append_left _ (List.mem_map_of_mem mem)))
  · exact Follows.done x

/-- An error concludes a prompt that is awaited, unless it is transient. -/
theorem follows_errorMessage (x : s.Accounts) (inReplyTo : Option String) (code sessionId : String)
    (awaited : Bool) : Follows s [] (s.errorMessage inReplyTo code sessionId awaited) := by
  unfold Sync.errorMessage
  split
  · next ref id _ =>
    split
    · refine follows_conclude x [.failed id ref.sessionId] ?_ ?_ rfl
      · intro event mem
        rw [List.mem_singleton.mp mem]
        exact quiet_failed id ref.sessionId
      · intro other mem
        rw [List.mem_singleton.mp mem]
        exact Or.inr (Or.inr List.mem_cons_self)
    · exact Follows.done x
  · exact Follows.done x

theorem follows_activate (x : s.Accounts) (epk roomId : String) (indexLoaded : Bool) :
    Follows s [] (s.activate epk roomId indexLoaded, none) := by
  simp only [Sync.activate]
  generalize (if roomId.isEmpty = true then "main" else roomId) = room
  split
  · exact Follows.done x
  · exact Follows.ended x rfl rfl rfl rfl

end Calls

/-! ## Runs -/

/-- The records are accounted for, every call knows what it is about, and the ids that are written
for the first time were given out for that. -/
structure World.Sound (w : World) : Prop where
  account : w.sync.Accounts
  tasks : ∀ (n : Nat) (task : Task), w.tasks n = some task → task.Sound w.sync.saved w.sync.history
  tickets : Tickets.Sound w.sync.ids (fun n => (w.tasks n).bind Task.unsaved) w.sync.saved

theorem sound_new (conn : Connection) : (World.new conn).Sound where
  account := Account.nil
  tasks _ _ there := absurd there (Option.not_mem_none _)
  tickets := Tickets.Sound.nil

section Runs

variable {w : World} {n : Nat} {result : Sync × Option Task}

/-- The other calls know what they knew. -/
theorem World.Sound.advance (x : w.Sound) (account : result.1.Accounts)
    (saved : w.sync.saved ⊆ result.1.saved) (history : w.sync.history ⊆ result.1.history)
    (sound : ∀ task ∈ result.2, task.Sound result.1.saved result.1.history)
    (tickets : Tickets.Sound result.1.ids
      (fun m => (Function.update w.tasks n result.2 m).bind Task.unsaved) result.1.saved) :
    World.Sound ⟨result.1, Function.update w.tasks n result.2⟩ where
  account := account
  tasks := by
    intro m task there
    change Function.update w.tasks n result.2 m = some task at there
    by_cases same : m = n
    · subst same
      rw [Function.update_self] at there
      exact sound task there
    · rw [Function.update_of_ne same] at there
      exact (x.tasks m task there).mono saved history
  tickets := tickets

/-- What a call has still to write is what it had. -/
theorem unsaved_update {task : Option Task} (last : task.bind Task.unsaved = none) (m : Nat)
    (id : String) (has : (Function.update w.tasks n task m).bind Task.unsaved = some id) :
    (w.tasks m).bind Task.unsaved = some id := by
  by_cases same : m = n
  · subst same
    rw [Function.update_self, last] at has
    cases has
  · rwa [Function.update_of_ne same] at has

/-- A step that writes no first record. -/
theorem World.Sound.follow (x : w.Sound) (follows : Follows w.sync [] result) :
    World.Sound ⟨result.1, Function.update w.tasks n result.2⟩ := by
  have saved : result.1.saved = w.sync.saved := by rw [follows.saved, List.append_nil]
  refine x.advance follows.account (saved ▸ List.Subset.refl _) follows.history
    (fun task mem => (follows.task task mem).1) ?_
  rw [follows.ids, saved]
  exact x.tickets.lose (unsaved_update follows.unsaved)

/-- A step that may write the first record of its prompt. -/
theorem World.Sound.submit (x : w.Sound) {send : Send} (waits : w.tasks n = some (.submit send))
    (outcome : Outcome) : World.Sound ⟨(w.sync.resume outcome (.submit send)).1,
      Function.update w.tasks n (w.sync.resume outcome (.submit send)).2⟩ := by
  have has : (w.tasks n).bind Task.unsaved = some send.prompt.id := by
    rw [waits]
    rfl
  obtain ⟨new, which, follows⟩ := follows_submit outcome x.account
    (x.tickets.unused_of_held n _ has)
  rcases which with rfl | rfl
  · exact x.follow follows
  · refine x.advance follows.account ?_ follows.history (fun task mem => (follows.task task mem).1)
      ?_
    · rw [follows.saved]
      exact List.subset_append_left _ _
    · rw [follows.ids, follows.saved]
      refine x.tickets.use has ?_ (unsaved_update follows.unsaved)
      rw [Function.update_self]
      exact follows.unsaved

/-- A prompt is given an id that was not given out. -/
theorem World.Sound.sendMessage (x : w.Sound) {prompt : Prompt} {stores : Bool}
    (peer : w.sync.activeEpk.isSome = true) (free : w.tasks n = none)
    (taken : w.sync.sendMessage prompt stores = some result) :
    World.Sound ⟨result.1, Function.update w.tasks n result.2⟩ := by
  rw [Sync.sendMessage] at taken
  split at taken
  · cases taken
  · next fresh =>
    -- an id that was never issued is not saved
    have unused : prompt.id ∉ w.sync.saved := fun mem => fresh (x.tickets.issued_of_used _ mem)
    split at taken
    · -- the call has still to write the record
      next ref _ =>
      cases taken
      refine x.advance x.account (List.Subset.refl _) (List.Subset.refl _) ?_ ?_
      · rintro _ ⟨⟩
        trivial
      · refine x.tickets.issue (i := n) fresh ?_
        intro m other has
        by_cases same : m = n
        · subst same
          rw [Function.update_self] at has
          exact Or.inl ⟨rfl, (Option.some_inj.mp has).symm⟩
        · rw [Function.update_of_ne same] at has
          exact Or.inr has
    · next epk _ =>
      cases taken
      -- the task that holds the prompt has nothing left to save
      have kept : ∀ (m : Nat) (other : String),
          (Function.update w.tasks n (some (.saveHeld prompt.id stores)) m).bind Task.unsaved =
            some other → (w.tasks m).bind Task.unsaved = some other := unsaved_update rfl
      cases stores with
      | true =>
        refine x.advance (Account.save x.account unused) (List.subset_append_left _ _)
          (List.subset_cons_self _ _) ?_ ?_
        · rintro _ ⟨⟩ _
          exact List.mem_append_right _ List.mem_cons_self
        · -- the id is given out and used in the same step
          have issued : Tickets.Sound (w.sync.ids ++ [prompt.id])
              (Function.update (fun m => (w.tasks m).bind Task.unsaved) n (some prompt.id))
              w.sync.saved := by
            refine x.tickets.issue (i := n) fresh ?_
            intro m other has
            by_cases same : m = n
            · subst same
              rw [Function.update_self] at has
              exact Or.inl ⟨rfl, (Option.some_inj.mp has).symm⟩
            · rw [Function.update_of_ne same] at has
              exact Or.inr has
          refine issued.use (i := n) (Function.update_self _ _ _) ?_ ?_
          · rw [Function.update_self]
            rfl
          · intro m other has
            have before := kept m other has
            by_cases same : m = n
            · subst same
              rw [free] at before
              cases before
            · rw [Function.update_of_ne same]
              exact before
      | false =>
        refine x.advance x.account (List.Subset.refl _) (List.Subset.refl _) ?_ ?_
        · rintro _ ⟨⟩
          exact nofun
        · exact x.tickets.issue (i := n) fresh fun m other has => Or.inr (kept m other has)
    · next noPeer =>
      rw [noPeer] at peer
      cases peer

/-- A request keeps the account, if it is backed. -/
theorem World.Sound.start (x : w.Sound) {request : Request} {stores : Bool}
    (backed : Backed w (.start n request stores)) (free : w.tasks n = none)
    (taken : w.sync.start stores request = some result) :
    World.Sound ⟨result.1, Function.update w.tasks n result.2⟩ := by
  cases request with
  | sendMessage prompt => exact x.sendMessage backed free taken
  | recover =>
    cases taken
    exact x.follow (follows_recover x.account)
  | userInput id sessionId =>
    cases taken
    exact x.follow (follows_userInput x.account id sessionId)
  | sessionHistory ids sessionId =>
    cases taken
    exact x.follow (follows_sessionHistory x.account ids sessionId)
  | cancelled targetId sessionId pendingSteeringId =>
    cases taken
    exact x.follow (follows_cancelled x.account targetId sessionId pendingSteeringId)
  | errorMessage inReplyTo code sessionId awaited =>
    cases taken
    exact x.follow (follows_errorMessage x.account inReplyTo code sessionId awaited)
  | connection conn =>
    cases taken
    exact x.follow (Follows.ended x.account rfl rfl rfl rfl)
  | activate epk roomId indexLoaded =>
    cases taken
    exact x.follow (follows_activate x.account epk roomId indexLoaded)
  | disconnected =>
    cases taken
    exact x.follow (Follows.ended x.account rfl rfl rfl rfl)

/-- The end of an awaited operation keeps the account, if it is backed. -/
theorem World.Sound.resume (x : w.Sound) {task : Task} {outcome : Outcome}
    (waits : w.tasks n = some task) (backs : w.sync.backs outcome task = true) :
    World.Sound ⟨(w.sync.resume outcome task).1,
      Function.update w.tasks n (w.sync.resume outcome task).2⟩ := by
  cases last : task.unsaved with
  | none => exact x.follow (follows_resume x.account (x.tasks n task waits) last backs)
  | some id =>
    cases task with
    | submit send => exact x.submit waits outcome
    | _ => cases last

/-- Every backed step keeps the account. -/
theorem World.Sound.step {w' : World} {label : Label} (x : w.Sound) (backed : Backed w label)
    (taken : step w label = some w') : w'.Sound := by
  cases label with
  | start n request stores =>
    rw [OwnerOutbox.step] at taken
    split at taken
    · next free =>
      obtain ⟨result, started, rfl⟩ := Option.map_eq_some_iff.mp taken
      exact x.start backed (Option.isNone_iff_eq_none.mp free) started
    · cases taken
  | resume n outcome =>
    obtain ⟨task, waits, rfl⟩ := Option.map_eq_some_iff.mp taken
    apply x.resume waits
    rw [Backed, waits] at backed
    exact backed

end Runs

/-- An accepted prompt has its record until the session that it is aimed at confirms it, or it is
cancelled, or it fails, and once its record is removed it is neither written nor sent again. -/
theorem owner_prompts_conserved {w : World} (reached : machine.ReachableUnder Backed w) :
    Conserved w.sync := by
  have x : w.Sound := by
    refine reached.invariant ?_ ?_
    · rintro _ ⟨conn, rfl⟩
      exact sound_new conn
    · intro w label w' x backed taken
      exact x.step backed taken
  have account := x.account
  exact ⟨fun id accepted => account.there id (account.accepted id accepted), account.concluded,
    account.final⟩

/-- A prompt that is not confirmed when the connection is lost is sent again by the pass after the
reconnect, and then confirmed. -/
theorem owner_prompts_conserved_reconnected :
    ∃ w, machine.ReachableUnder Backed w ∧ w.sync.outbox = [] ∧
      (w.sync.history.filter fun event => event.revives "x").length = 3 ∧ Conserved w.sync := by
  let conn : Connection := ⟨some "pi", "main", some "s1", some 1, true, [("pi", "main")]⟩
  let prompt : Prompt := ⟨"x", "hello", ⟨0⟩, none, none⟩
  let done : Outcome := ⟨true, true⟩
  let schedule : List Label :=
    [.start 0 (.activate "pi" "main" false) true, .start 0 (.sendMessage prompt) true,
      .resume 0 done, .resume 0 done, .resume 0 ⟨false, true⟩, .start 1 .disconnected true,
      .start 1 (.connection { conn with channel := some 2 }) true, .start 1 .recover true,
      .resume 1 done, .resume 1 done, .resume 1 done, .start 2 (.userInput "x" "s1") true,
      .resume 2 done]
  have ran : (machine.exec (.new conn) schedule).any (fun w => decide (w.sync.outbox = [] ∧
      (w.sync.history.filter fun event => event.revives "x").length = 3)) = true := by
    decide +kernel
  have meets : machine.Meets Backed (.new conn) schedule := by decide +kernel
  obtain ⟨w, executed, facts⟩ := (Option.any_eq_true _ _).mp ran
  obtain ⟨empty, three⟩ := of_decide_eq_true facts
  have initial : machine.Init (.new conn) := ⟨conn, rfl⟩
  have reached : machine.ReachableUnder Backed w :=
    ⟨_, initial, Machine.runsTo_of_exec meets executed⟩
  exact ⟨w, reached, empty, three, owner_prompts_conserved reached⟩

/-- The history confirms a prompt that a pass has taken up: the prompt is sent again. A steering
prompt is cancelled between the list of a pass and its turn: its record is written again for the
new session. A prompt without a peer has no record. -/
theorem exists_prompt_brought_back :
    (∃ w, machine.Reachable w ∧ ¬ NoneRevived w.sync.history ∧ w.sync.outbox = []) ∧
      (∃ w, machine.Reachable w ∧ ¬ NoneRevived w.sync.history ∧
        w.sync.outbox.any fun record => record.id = "z") ∧
      ∃ w, machine.Reachable w ∧ ¬ Conserved w.sync ∧ w.sync.outbox = [] := by
  let conn : Connection := ⟨some "pi", "main", some "s1", some 1, true, [("pi", "main")]⟩
  let done : Outcome := ⟨true, true⟩
  have initial : machine.Init (.new conn) := ⟨conn, rfl⟩
  refine ⟨?_, ?_, ?_⟩
  -- a recovery that has listed the prompt before its echo removes it
  · let prompt : Prompt := ⟨"x", "hello", ⟨0⟩, none, none⟩
    let schedule : List Label :=
      [.start 0 (.activate "pi" "main" false) true, .start 0 (.sendMessage prompt) true,
        .resume 0 done, .resume 0 done, .resume 0 done, .start 1 .disconnected true,
        .start 1 (.connection { conn with channel := some 2 }) true,
        .start 1 (.sessionHistory ["x"] "s1") true, .start 2 .recover true, .resume 2 done,
        .resume 1 done, .resume 2 done]
    have ran : (machine.exec (.new conn) schedule).any (fun w =>
        decide (¬ NoneRevived w.sync.history ∧ w.sync.outbox = [])) = true := by decide +kernel
    obtain ⟨w, executed, facts⟩ := (Option.any_eq_true _ _).mp ran
    have brought := of_decide_eq_true facts
    have reached : machine.Reachable w := Machine.reachable_of_exec initial executed
    exact ⟨w, reached, brought⟩
  -- a cancelled steering prompt, retargeted by a recovery that has listed it before
  · let schedule : List Label :=
      [.start 0 (.activate "pi" "main" false) true,
        .start 0 (.connection { conn with channel := none }) true,
        .start 0 (.sendMessage ⟨"w", "held", ⟨0⟩, none, none⟩) true, .resume 0 done,
        .resume 0 done, .start 0 (.connection conn) true,
        .start 0 (.sendMessage ⟨"t", "hello", ⟨1⟩, none, none⟩) true, .resume 0 done,
        .resume 0 done, .resume 0 done,
        .start 0 (.sendMessage ⟨"z", "stop", ⟨2⟩, none, some .steer⟩) true, .resume 0 done,
        .resume 0 done, .resume 0 done,
        .start 1 (.cancelled "t" "s1" (some "z")) true, .resume 1 done,
        .start 2 (.connection { conn with activeSessionId := some "s2" }) true,
        .start 2 (.activate "pi" "main" false) true, .start 2 .recover true, .resume 2 done,
        .resume 1 done, .resume 2 done, .resume 2 done, .resume 2 done]
    have ran : (machine.exec (.new conn) schedule).any (fun w =>
        decide (¬ NoneRevived w.sync.history ∧
          w.sync.outbox.any fun record => record.id = "z")) = true := by decide +kernel
    obtain ⟨w, executed, facts⟩ := (Option.any_eq_true _ _).mp ran
    have brought := of_decide_eq_true facts
    have reached : machine.Reachable w := Machine.reachable_of_exec initial executed
    exact ⟨w, reached, brought⟩
  -- a prompt that is sent without a peer is never written
  · let offline : Connection := ⟨none, "main", none, none, false, []⟩
    let prompt : Prompt := ⟨"x", "hello", ⟨0⟩, none, none⟩
    have executed : machine.exec (.new offline) [.start 0 (.sendMessage prompt) true] = some _ :=
      rfl
    refine ⟨_, Machine.reachable_of_exec ⟨offline, rfl⟩ executed, ?_, rfl⟩
    intro conserved
    rcases conserved.kept "x" List.mem_cons_self with ⟨record, mem, -⟩ | ⟨delivery, removed, -⟩
    · cases mem
    · rcases List.mem_cons.mp removed with same | mem
      · cases same
      · cases mem

end OutpostPi.App.OwnerOutbox
