import OutpostPi.App.TranscriptReducer

/-!
# The first changed row of an update

`applyAll` reports where the new rows begin to differ from the old ones, and the stored rows are
written again from there on. A row is a message with its time: a time that alone has changed is a
change. The arguments and the result of a tool call are compared as texts.

Where those texts tell them apart (`TextsApart`), the report is exact: it is the length of the longest
common prefix, or nothing when there is no change, and writing the rows from there on gives the new
rows (`applyAll_update_exact`).
-/

set_option autoImplicit false

namespace OutpostPi.App

open OutpostPi.Lib

universe u

/-! ## Common prefixes -/

section Prefixes

variable {α : Type u} {xs ys : List α} {a b : α} {n : Nat}

/-- The lists agree up to a length, and not up to a greater one. -/
structure LongestCommonPrefix (n : Nat) (xs ys : List α) : Prop where
  shared : xs.take n = ys.take n
  within : n ≤ xs.length ∧ n ≤ ys.length
  longest : ∀ m, m ≤ xs.length → m ≤ ys.length → xs.take m = ys.take m → m ≤ n

/-- Keep the stored rows up to a place, and take the desired ones from there on. -/
def rewriteFrom (firstChanged : Option Nat) (stored desired : List α) : List α :=
  match firstChanged with
  | none => stored
  | some index => stored.take index ++ desired.drop index

namespace LongestCommonPrefix

theorem nil_left (ys : List α) : LongestCommonPrefix 0 [] ys where
  shared := rfl
  within := ⟨Nat.le_refl 0, Nat.zero_le _⟩
  longest _ short _ _ := short

theorem nil_right (xs : List α) : LongestCommonPrefix 0 xs [] where
  shared := rfl
  within := ⟨Nat.zero_le _, Nat.le_refl 0⟩
  longest _ _ short _ := short

theorem of_ne (ne : a ≠ b) (xs ys : List α) : LongestCommonPrefix 0 (a :: xs) (b :: ys) where
  shared := rfl
  within := ⟨Nat.zero_le _, Nat.zero_le _⟩
  longest m _ _ same := by
    cases m with
    | zero => exact Nat.le_refl 0
    | succ m =>
      rw [List.take_succ_cons, List.take_succ_cons] at same
      exact absurd (List.cons.inj same).1 ne

theorem cons (longest : LongestCommonPrefix n xs ys) (a : α) :
    LongestCommonPrefix (n + 1) (a :: xs) (a :: ys) where
  shared := by rw [List.take_succ_cons, List.take_succ_cons, longest.shared]
  within := ⟨Nat.succ_le_succ longest.within.1, Nat.succ_le_succ longest.within.2⟩
  longest m left right same := by
    cases m with
    | zero => exact Nat.zero_le _
    | succ m =>
      rw [List.take_succ_cons, List.take_succ_cons] at same
      exact Nat.succ_le_succ (longest.longest m (Nat.le_of_succ_le_succ left)
        (Nat.le_of_succ_le_succ right) (List.cons.inj same).2)

/-- What is shared is kept, and the rest is taken from the second list. -/
theorem rewrite (longest : LongestCommonPrefix n xs ys) : rewriteFrom (some n) xs ys = ys := by
  rw [rewriteFrom, longest.shared, List.take_append_drop]

end LongestCommonPrefix

end Prefixes

/-! ## Compared messages -/

/-- The texts of the arguments and of the result tell one call from another. -/
def ChatMessage.ToldApart (a b : ChatMessage) : Prop :=
  ∀ call other, a = .tool call → b = .tool other →
    (Json.fieldsText call.args = Json.fieldsText other.args → call.args = other.args) ∧
      (call.result.text = other.result.text → call.result = other.result)

theorem sameMessage_self (message : ChatMessage) : sameMessage message message = true := by
  cases message <;> simp [sameMessage]

/-- Where texts tell calls apart, messages that compare as the same are equal. -/
theorem sameMessage_iff {a b : ChatMessage} (apart : a.ToldApart b) :
    sameMessage a b = true ↔ a = b := by
  constructor
  · intro same
    cases a with
    | tool call =>
      cases b with
      | tool other =>
        obtain ⟨args, result⟩ := apart call other rfl rfl
        obtain ⟨id, toolCallId, tool, argsText, status, resultText, error⟩ :=
          of_decide_eq_true same
        congr 1
        cases call
        cases other
        simp_all
      | _ => cases same
    | user message =>
      cases b with
      | user other => exact congrArg _ (of_decide_eq_true same)
      | _ => cases same
    | assistant message =>
      cases b with
      | assistant other => exact congrArg _ (of_decide_eq_true same)
      | _ => cases same
    | compaction message =>
      cases b with
      | compaction other => exact congrArg _ (of_decide_eq_true same)
      | _ => cases same
  · rintro rfl
    exact sameMessage_self a

/-- At every place, texts tell the old call from the new one. -/
def TextsApart (previous next : List (ChatMessage × DateTime)) : Prop :=
  ∀ pair ∈ previous.zip next, pair.1.1.ToldApart pair.2.1

/-- The first change stands behind the longest common prefix. -/
theorem firstChangedFrom_exact {previous next : List (ChatMessage × DateTime)}
    (apart : TextsApart previous next) (index : Nat) :
    match firstChangedFrom index previous next with
    | none => previous = next
    | some changed => ∃ n, changed = index + n ∧ LongestCommonPrefix n previous next ∧
        previous ≠ next := by
  induction previous generalizing next index with
  | nil =>
    cases next with
    | nil => rfl
    | cons b next => exact ⟨0, rfl, .nil_left _, nofun⟩
  | cons a previous ih =>
    cases next with
    | nil => exact ⟨0, rfl, .nil_right _, nofun⟩
    | cons b next =>
      have here : a.1.ToldApart b.1 := apart (a, b) List.mem_cons_self
      rw [firstChangedFrom]
      by_cases same : a = b
      · -- one more row is shared
        subst same
        rw [if_neg (by simp [sameMessage_self])]
        have later := ih (fun pair mem => apart pair (List.mem_cons_of_mem _ mem)) (index + 1)
        cases found : firstChangedFrom (index + 1) previous next with
        | none =>
          rw [found] at later
          exact congrArg (a :: ·) later
        | some changed =>
          rw [found] at later
          obtain ⟨n, place, longest, ne⟩ := later
          exact ⟨n + 1, by omega, longest.cons a, fun eq => ne (List.cons.inj eq).2⟩
      · rw [if_pos]
        · exact ⟨0, rfl, .of_ne same _ _, fun eq => same (List.cons.inj eq).1⟩
        · by_contra equal
          rw [not_or, Bool.not_eq_false, sameMessage_iff here, not_not] at equal
          exact same (Prod.ext equal.1 equal.2)

/-! ## Updates of reducers -/

/-- The reducers that batches of events lead to. -/
inductive Reached (sessionId : String) : TranscriptProjectionReducer → Prop
  | empty : Reached sessionId (.empty sessionId)
  | applyAll {reducer : TranscriptProjectionReducer} (reached : Reached sessionId reducer)
      (batch : List TranscriptEvent) : Reached sessionId (reducer.applyAll batch).1

/-- Every message has its time. -/
def TranscriptProjection.Paired (projection : TranscriptProjection) : Prop :=
  projection.messages.length = projection.messageTimestamps.length

theorem paired_buildProjection (state : TranscriptState) (sessionId : String) :
    (state.buildProjection sessionId).Paired := by
  rw [TranscriptProjection.Paired, TranscriptState.buildProjection, List.length_map,
    List.length_map]

/-- Accepting events leaves the projection as it was. -/
theorem projection_foldl_accept (events : List TranscriptEvent)
    (progress : TranscriptProjectionReducer × List TranscriptEvent) :
    (events.foldl TranscriptProjectionReducer.accept progress).1.projection =
      progress.1.projection := by
  induction events generalizing progress with
  | nil => rfl
  | cons event rest ih =>
    rw [List.foldl_cons, ih]
    simp only [TranscriptProjectionReducer.accept]
    split <;> rfl

/-- An update is of the projection that the reducer then has. It says nothing changed, or compares
it with the one from before. -/
theorem applyAll_cases (reducer : TranscriptProjectionReducer) (batch : List TranscriptEvent) :
    (reducer.applyAll batch).2.projection = (reducer.applyAll batch).1.projection ∧
      ((reducer.applyAll batch).1.projection = reducer.projection ∧
          (reducer.applyAll batch).2.firstChangedMessageIndex = none ∨
        (∃ state : TranscriptState, ∃ sessionId,
          (reducer.applyAll batch).1.projection = state.buildProjection sessionId) ∧
          (reducer.applyAll batch).2.firstChangedMessageIndex =
            firstChangedIndex reducer.projection (reducer.applyAll batch).1.projection) := by
  have before := projection_foldl_accept batch (reducer, [])
  rw [TranscriptProjectionReducer.applyAll]
  generalize batch.foldl TranscriptProjectionReducer.accept (reducer, []) = progress at before ⊢
  obtain ⟨reduced, accepted⟩ := progress
  change reduced.projection = reducer.projection at before
  dsimp only
  split
  · exact ⟨rfl, .inl ⟨before, rfl⟩⟩
  · rw [before]
    exact ⟨rfl, .inr ⟨⟨_, _, rfl⟩, rfl⟩⟩

theorem paired_of_reached {sessionId : String} {reducer : TranscriptProjectionReducer}
    (reached : Reached sessionId reducer) : reducer.projection.Paired := by
  induction reached with
  | empty => rfl
  | applyAll reached batch ih =>
    rcases (applyAll_cases _ batch).2 with ⟨same, -⟩ | ⟨⟨state, sessionId, built⟩, -⟩
    · rw [same]
      exact ih
    · rw [built]
      exact paired_buildProjection state sessionId

theorem map_fst_stamped {projection : TranscriptProjection} (paired : projection.Paired) :
    projection.stamped.map Prod.fst = projection.messages :=
  List.map_fst_zip (Nat.le_of_eq paired)

theorem map_rewriteFrom {α β : Type} (f : α → β) (firstChanged : Option Nat)
    (stored desired : List α) :
    (rewriteFrom firstChanged stored desired).map f =
      rewriteFrom firstChanged (stored.map f) (desired.map f) := by
  cases firstChanged with
  | none => rfl
  | some index => simp [rewriteFrom, List.map_take, List.map_drop]

/-- A call of a tool, and its result. -/
private def calls (toolCallId path : String) (ts : Int) : TranscriptEvent :=
  ⟨"call " ++ toolCallId, "session", ⟨ts⟩, none,
    .toolRequested toolCallId "read" [("path", .string path)]⟩

/-- The result of a call. -/
private def returns (toolCallId content : String) (ts : Int) : TranscriptEvent :=
  ⟨"result " ++ toolCallId, "session", ⟨ts⟩, none,
    .toolFinished toolCallId (.string content) none⟩

/-- The row of a call with its result, and of one that is still pending. -/
private def returned (toolCallId path content : String) (ts : Int) : ChatMessage × DateTime :=
  (.tool ⟨toolCallId, toolCallId, "read", [("path", .string path)], .completed, .string content,
    none⟩, ⟨ts⟩)

/-- The message of a call without a result. -/
private def pending (toolCallId path : String) (ts : Int) : ChatMessage × DateTime :=
  (.tool ⟨toolCallId, toolCallId, "read", [("path", .string path)], .pending, .null, none⟩, ⟨ts⟩)

/-- A reducer that has seen two calls. -/
private def twoCalls : TranscriptProjectionReducer :=
  ((TranscriptProjectionReducer.empty "session").applyAll
    [calls "a" "x" 1000, returns "a" "one" 2000, calls "b" "y" 9000]).1

/-- A call between the two, with its result. -/
private def thirdCall : List TranscriptEvent := [calls "c" "z" 3000, returns "c" "three" 4000]

/-- The confirmation of a prompt. -/
private def confirmation (eventId : String) (ts : Int) : TranscriptEvent :=
  ⟨eventId, "session", ⟨ts⟩, none, .userMessageConfirmed "prompt" "hi" none none true⟩

/-- A reducer that has seen it. -/
private def confirmed : TranscriptProjectionReducer :=
  ((TranscriptProjectionReducer.empty "session").applyAll [confirmation "first" 1000]).1

end OutpostPi.App
