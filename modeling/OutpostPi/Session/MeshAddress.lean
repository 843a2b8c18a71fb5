import Mathlib.Data.List.Basic
import Mathlib.Data.List.TakeWhile

/-!
# Addresses of the mesh

A peer has the address `<cwd>@<name>`, or its name alone where it has no working directory. The
name is sanitized, so that it has none of the characters which separate the parts of an address,
and is none of the names that routing reserves. A peer on another computer has the address
`<pc>:<address>` with the label of that computer.

`composeAddress_ne_reserved` says that no composed address of an assignable name is a reserved
one, and `parseAddress_eq_some` what the two parts of an address are.
-/

set_option autoImplicit false

namespace OutpostPi.Session

/-! ## Names -/

/-- The white space of JavaScript, line terminators included. -/
def isSpace (c : Char) : Bool :=
  let code := c.toNat
  (9 ≤ code && code ≤ 13) || code = 0x20 || code = 0xa0 || code = 0x1680 ||
    (0x2000 ≤ code && code ≤ 0x200a) || code = 0x2028 || code = 0x2029 || code = 0x202f ||
    code = 0x205f || code = 0x3000 || code = 0xfeff

/-- The characters that a name loses: `/`, `:`, `@`, `#` and white space. -/
def isSeparator (c : Char) : Bool := c = '/' || c = ':' || c = '@' || c = '#' || isSpace c

/-- Put one `-` for every run of characters that pass a test. -/
def replaceRuns (test : Char → Bool) : Bool → List Char → List Char
  | _, [] => []
  | inRun, c :: rest =>
    if test c then
      if inRun then replaceRuns test true rest else '-' :: replaceRuns test true rest
    else c :: replaceRuns test false rest

/-- Drop what passes a test at both ends. -/
def stripEdges (test : Char → Bool) (text : List Char) : List Char :=
  ((text.dropWhile test).reverse.dropWhile test).reverse

/-- The lower case of a character, as far as the letters of a reserved name go. The Kelvin sign is
the one letter beyond ASCII whose lower case is among them. -/
def toLowerCase (c : Char) : Char := if c.toNat = 0x212a then 'k' else c.toLower

def reservedNames : List (List Char) := ["broadcast".toList, "broker".toList]

/-- A name segment as a token, absent when nothing is left of it or it is reserved. -/
def sanitizeSegment (v : List Char) : Option (List Char) :=
  let dashed := replaceRuns isSeparator false (stripEdges isSpace v)
  let token := stripEdges (· = '-') (replaceRuns (· = '-') false dashed)
  if token = [] then none
  else if reservedNames.contains (token.map toLowerCase) then none
  else some token

/-- The characters that `.` of a regular expression does not match. -/
def isLineTerminator (c : Char) : Bool :=
  c = '\n' || c = '\r' || c.toNat = 0x2028 || c.toNat = 0x2029

/-- A text and the suffix `#N` at its end, which is empty where there is none. -/
def splitSuffix (text : List Char) : List Char × List Char :=
  let digits := text.reverse.takeWhile Char.isDigit
  let rest := text.reverse.dropWhile Char.isDigit
  match rest with
  | '#' :: front => if digits = [] then (text, []) else (front.reverse, '#' :: digits.reverse)
  | _ => (text, [])

/-- A requested name, with the suffix that tells peers of one name apart. -/
def sanitizeMeshName (raw : List Char) : List Char :=
  if raw.any isLineTerminator then (sanitizeSegment raw).getD "agent".toList
  else (sanitizeSegment (splitSuffix raw).1).getD "agent".toList ++ (splitSuffix raw).2

/-! ## Addresses -/

/-- The address of a local peer. -/
def composeAddress (cwd : String) (name : List Char) : String :=
  if cwd.isEmpty then String.ofList name else cwd ++ "@" ++ String.ofList name

/-- The label of the computer and the address on it, absent where one of them is empty. -/
def parseAddress (address : String) : Option (String × String) :=
  let pcLabel := address.toList.takeWhile (· ≠ ':')
  let peerName := (address.toList.dropWhile (· ≠ ':')).drop 1
  if pcLabel = [] ∨ peerName = [] then none
  else some (String.ofList pcLabel, String.ofList peerName)

/-! ## What a name has -/

variable {test : Char → Bool}

theorem not_test_of_mem_replaceRuns (plain : test '-' = false) (inRun : Bool) (text : List Char) :
    ∀ c ∈ replaceRuns test inRun text, test c = false := by
  induction text generalizing inRun with
  | nil => exact fun c mem => absurd mem List.not_mem_nil
  | cons first rest ih =>
    intro c mem
    rw [replaceRuns] at mem
    split at mem
    · split at mem
      · exact ih true c mem
      · rcases List.mem_cons.mp mem with rfl | later
        · exact plain
        · exact ih true c later
    · next kept =>
      rcases List.mem_cons.mp mem with rfl | later
      · exact Bool.not_eq_true _ |>.mp kept
      · exact ih false c later

/-- A replacement puts nothing but `-` into a text. -/
theorem mem_of_mem_replaceRuns {inRun : Bool} {text : List Char} {c : Char}
    (mem : c ∈ replaceRuns test inRun text) : c = '-' ∨ c ∈ text := by
  induction text generalizing inRun with
  | nil => exact absurd mem List.not_mem_nil
  | cons first rest ih =>
    rw [replaceRuns] at mem
    split at mem
    · split at mem
      · exact (ih mem).imp_right (List.mem_cons_of_mem _)
      · rcases List.mem_cons.mp mem with rfl | later
        · exact Or.inl rfl
        · exact (ih later).imp_right (List.mem_cons_of_mem _)
    · rcases List.mem_cons.mp mem with rfl | later
      · exact Or.inr List.mem_cons_self
      · exact (ih later).imp_right (List.mem_cons_of_mem _)

theorem mem_of_mem_stripEdges {text : List Char} {c : Char} (mem : c ∈ stripEdges test text) :
    c ∈ text := by
  rw [stripEdges, List.mem_reverse] at mem
  have front := List.mem_reverse.mp ((List.dropWhile_suffix test).subset mem)
  exact (List.dropWhile_suffix test).subset front

/-- A sanitized segment has no separator and is no reserved name. -/
theorem sanitizeSegment_some {v token : List Char} (sanitized : sanitizeSegment v = some token) :
    (∀ c ∈ token, isSeparator c = false) ∧ token ∉ reservedNames ∧ token ≠ [] := by
  rw [sanitizeSegment] at sanitized
  split at sanitized
  · cases sanitized
  · next nonempty =>
    split at sanitized
    · cases sanitized
    · next free =>
      cases sanitized
      refine ⟨fun c mem => ?_, fun reserved => free ?_, nonempty⟩
      · rcases mem_of_mem_replaceRuns (mem_of_mem_stripEdges mem) with rfl | before
        · rfl
        · exact not_test_of_mem_replaceRuns (by decide +kernel) false _ c before
      · -- the reserved names are in lower case already
        have lower : ∀ name ∈ reservedNames, name.map toLowerCase = name := by decide +kernel
        rw [lower _ reserved]
        exact List.contains_iff_mem.mpr reserved

/-! ## What an address has -/

/-- The names of the parts of routing that are no peer. -/
def brokerName : String := "broker"

def broadcastName : String := "broadcast"

/-- A name as the broker assigns it: a sanitized token, with a suffix `#N` where it has one. -/
structure Assignable (name : List Char) : Prop where
  nonempty : name ≠ []
  /-- No name has the character that ends a working directory. -/
  atFree : '@' ∉ name
  /-- A name without a suffix is none of the reserved ones. -/
  free : '#' ∈ name ∨ name ∉ reservedNames

theorem assignable_segment (v : List Char) :
    Assignable ((sanitizeSegment v).getD "agent".toList) := by
  cases sanitized : sanitizeSegment v with
  | none => exact ⟨by decide, by decide, Or.inr (by decide)⟩
  | some token =>
    obtain ⟨plain, free, nonempty⟩ := sanitizeSegment_some sanitized
    refine ⟨nonempty, fun mem => ?_, Or.inr free⟩
    cases plain _ mem

/-- A suffix keeps a name assignable. -/
theorem Assignable.append {name : List Char} (assignable : Assignable name) {digits : List Char}
    (atFree : '@' ∉ digits) : Assignable (name ++ '#' :: digits) := by
  refine ⟨by simp, ?_, Or.inl (by simp)⟩
  rw [List.mem_append, List.mem_cons, not_or, not_or]
  exact ⟨assignable.atFree, by decide, atFree⟩

/-- A text falls into the front and the suffix, which is empty or `#` and digits. -/
theorem splitSuffix_eq (text : List Char) :
    (splitSuffix text).1 ++ (splitSuffix text).2 = text ∧
      ((splitSuffix text).2 = [] ∨
        ∃ digits, (splitSuffix text).2 = '#' :: digits ∧ ∀ c ∈ digits, c.isDigit) := by
  have parts := List.takeWhile_append_dropWhile (p := Char.isDigit) (l := text.reverse)
  rw [splitSuffix]
  split
  · next front rest =>
    split
    · exact ⟨List.append_nil _, Or.inl rfl⟩
    · refine ⟨?_, Or.inr ⟨_, rfl, ?_⟩⟩
      · rw [rest] at parts
        have reversed := congrArg List.reverse parts
        simpa using reversed
      · intro c mem
        exact List.mem_takeWhile_imp (List.mem_reverse.mp mem)
  · exact ⟨List.append_nil _, Or.inl rfl⟩

theorem assignable_sanitizeMeshName (raw : List Char) : Assignable (sanitizeMeshName raw) := by
  rw [sanitizeMeshName]
  split
  · exact assignable_segment raw
  · rcases (splitSuffix_eq raw).2 with none | ⟨digits, suffix, numeric⟩
    · rw [none, List.append_nil]
      exact assignable_segment _
    · rw [suffix]
      refine (assignable_segment _).append fun mem => ?_
      exact absurd (numeric _ mem) (by decide)

/-- An address with a working directory has an `@`, and one without has an assignable name. So no
address is a reserved name. -/
theorem composeAddress_ne_reserved {cwd : String} {name : List Char}
    (assignable : Assignable name) :
    composeAddress cwd name ≠ brokerName ∧ composeAddress cwd name ≠ broadcastName := by
  have differs (reserved : String) (plain : '@' ∉ reserved.toList)
      (noSuffix : '#' ∉ reserved.toList) (listed : reserved.toList ∈ reservedNames) :
      composeAddress cwd name ≠ reserved := by
    rintro rfl
    rw [composeAddress] at plain noSuffix listed
    split at plain
    · next empty =>
      rw [if_pos empty, String.toList_ofList] at noSuffix listed
      exact assignable.free.elim noSuffix fun free => free listed
    · simp at plain
  exact ⟨differs brokerName (by decide) (by decide) (by decide),
    differs broadcastName (by decide) (by decide) (by decide)⟩

/-- The characters of a text before its first `:`, and those after it. -/
theorem split_colon (text : List Char) (present : ':' ∈ text) :
    text = text.takeWhile (· ≠ ':') ++ ':' :: (text.dropWhile (· ≠ ':')).drop 1 := by
  induction text with
  | nil => exact absurd present List.not_mem_nil
  | cons first rest ih =>
    by_cases colon : first = ':'
    · subst colon
      simp
    · have later : ':' ∈ rest := (List.mem_cons.mp present).resolve_left (Ne.symm colon)
      rw [List.takeWhile_cons_of_pos (by simpa using colon),
        List.dropWhile_cons_of_pos (by simpa using colon), List.cons_append, ← ih later]

/-- The parts of an address are its two sides at the first `:`, neither of them empty. -/
theorem parseAddress_eq_some {address label rest : String} :
    parseAddress address = some (label, rest) ↔
      address = label ++ ":" ++ rest ∧ ':' ∉ label.toList ∧ label ≠ "" ∧ rest ≠ "" := by
  rw [parseAddress]
  constructor
  · intro parsed
    split at parsed
    · cases parsed
    · next nonempty =>
      rw [not_or] at nonempty
      cases parsed
      -- without a colon the rest would be empty
      have present : ':' ∈ address.toList := by
        by_contra absent
        refine nonempty.2 ?_
        rw [List.dropWhile_eq_nil_iff.mpr fun c mem => ?_]
        · rfl
        · simpa using fun colon : c = ':' => absent (colon ▸ mem)
      refine ⟨?_, ?_, ?_, ?_⟩
      · rw [← String.toList_inj]
        simpa using split_colon address.toList present
      · intro mem
        rw [String.toList_ofList] at mem
        simpa using List.mem_takeWhile_imp mem
      · rw [Ne, ← String.toList_inj, String.toList_ofList]
        exact nonempty.1
      · rw [Ne, ← String.toList_inj, String.toList_ofList]
        exact nonempty.2
  · rintro ⟨rfl, colonFree, label_ne, rest_ne⟩
    have before : ∀ c ∈ label.toList, decide (c ≠ ':') = true := by
      intro c mem
      simpa using fun colon : c = ':' => colonFree (colon ▸ mem)
    have characters : (label ++ ":" ++ rest).toList = label.toList ++ ':' :: rest.toList := by
      simp
    -- the label is what stands before the first colon
    have first : (label ++ ":" ++ rest).toList.takeWhile (· ≠ ':') = label.toList := by
      rw [characters, List.takeWhile_append_of_pos before]
      simp
    have second : ((label ++ ":" ++ rest).toList.dropWhile (· ≠ ':')).drop 1 = rest.toList := by
      rw [characters, List.dropWhile_append_of_pos before]
      simp
    have nonempty : ¬(label.toList = [] ∨ rest.toList = []) := by
      simpa [not_or] using ⟨label_ne, rest_ne⟩
    rw [first, second, if_neg nonempty, String.ofList_toList, String.ofList_toList]

end OutpostPi.Session
