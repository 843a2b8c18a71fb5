import OutpostPi.Lib.Base64Padding

/-!
# The spellings of a peer key

The relay and the mesh spell a key in standard base64, and the app stores it in the URL-safe
alphabet without padding. `toStandardB64` and `toAppEpk` read either spelling, and leave a text
that they cannot read as it is.

The standard spelling says all that the spelling of the app depends on, and the other way round
(`toAppEpk_toStandardB64`, `toStandardB64_toAppEpk`).
-/

set_option autoImplicit false

namespace OutpostPi.App

open OutpostPi.Lib

/-- The decoder of Dart takes a percent-encoded `=` for padding too. -/
def unescapePadding : List Char → List Char
  | '%' :: '3' :: 'D' :: rest => '=' :: unescapePadding rest
  | '%' :: '3' :: 'd' :: rest => '=' :: unescapePadding rest
  | c :: rest => c :: unescapePadding rest
  | [] => []

/-- The bytes that a key spells, with the padding that its length misses. -/
def decodeEpk (b64 : String) : Option (List UInt8) :=
  let pad := (4 - b64.toList.length % 4) % 4
  Base64.decodeStrict (unescapePadding (b64.toList ++ List.replicate pad '='))

/-- The letter of the URL-safe alphabet for one of the standard alphabet. -/
def urlLetter (c : Char) : Char := if c = '+' then '-' else if c = '/' then '_' else c

def encodeUnpaddedUrl (bytes : List UInt8) : String :=
  String.ofList (((Base64.encodeChars bytes).map urlLetter).filter fun c => c ≠ '=')

/-- Convert a key to base64 standard for the relay. -/
def toStandardB64 (b64 : String) : String :=
  if b64.isEmpty then b64
  else
    match decodeEpk b64 with
    | some bytes => Base64.encode bytes
    | none => b64

/-- Convert a key to the format that the stores of the app use. -/
def toAppEpk (b64 : String) : String :=
  if b64.isEmpty then b64
  else
    match decodeEpk b64 with
    | some bytes => encodeUnpaddedUrl bytes
    | none => b64

/-! ## Letters and padding -/

theorem unescapePadding_of_letters {text : List Char} (plain : ∀ c ∈ text, c ≠ '%') :
    unescapePadding text = text := by
  induction text with
  | nil => rfl
  | cons c rest ih =>
    have later := ih fun other mem => plain other (List.mem_cons_of_mem _ mem)
    unfold unescapePadding
    split
    · next eq =>
      cases eq
      exact absurd rfl (plain '%' List.mem_cons_self)
    · next eq =>
      cases eq
      exact absurd rfl (plain '%' List.mem_cons_self)
    · next eq =>
      cases eq
      rw [later]
    · next eq => cases eq

/-- Both alphabets have the same digits. -/
theorem urlDigit?_urlLetter (c : Char) : Base64.urlDigit? (urlLetter c) = Base64.urlDigit? c := by
  rw [urlLetter]
  split
  · next plus =>
    subst plus
    decide
  · split
    · next slash =>
      subst slash
      decide
    · rfl

theorem digitsOf_map_urlLetter (letters : List Char) :
    Base64.digitsOf (letters.map urlLetter) = Base64.digitsOf letters := by
  rw [Base64.digitsOf, List.filterMap_map, Base64.digitsOf]
  exact congrArg (List.filterMap · letters) (funext urlDigit?_urlLetter)

theorem isLetter_urlLetter (c : Char) :
    Base64.isLetter (urlLetter c) = Base64.isLetter c := by
  rw [Base64.isLetter, urlDigit?_urlLetter, Base64.isLetter]

theorem ne_percent_of_isLetter {c : Char} (isLetter : Base64.isLetter c = true) : c ≠ '%' := by
  rintro rfl
  revert isLetter
  decide

variable {letters : List Char}

/-- Letters that are padded to a whole group are read as what they say, padded or not. -/
theorem decodeStrict_letters {padding : Nat} (all : ∀ c ∈ letters, Base64.isLetter c = true)
    (padded : Base64.Padded (Base64.digitsOf letters) padding) :
    Base64.decodeStrict (unescapePadding (letters ++ List.replicate padding '=')) =
      some (Base64.bytesOf (Base64.digitsOf letters)) := by
  have plain : ∀ c ∈ letters ++ List.replicate padding '=', c ≠ '%' := by
    intro c mem
    rcases List.mem_append.mp mem with mem | mem
    · exact ne_percent_of_isLetter (all c mem)
    · rw [List.eq_of_mem_replicate mem]
      decide
  rw [unescapePadding_of_letters plain, Base64.decodeStrict_append_padding letters padding all,
    if_pos padded]

theorem padding_of_padded {padding : Nat} (all : ∀ c ∈ letters, Base64.isLetter c = true)
    (padded : Base64.Padded (Base64.digitsOf letters) padding) :
    padding = (4 - letters.length % 4) % 4 ∧ (letters.length + padding) % 4 = 0 := by
  have lengths := padded.2
  rw [Base64.length_digitsOf all] at lengths
  omega

/-! ## Round trips -/

theorem encodeUnpaddedUrl_letters (padding : Nat) (all : ∀ c ∈ letters, Base64.isLetter c = true) :
    ((letters ++ List.replicate padding '=').map urlLetter).filter (fun c => c ≠ '=') =
      letters.map urlLetter := by
  have kept : (letters.map urlLetter).filter (fun c => decide (c ≠ '=')) =
      letters.map urlLetter := by
    refine List.filter_eq_self.mpr ?_
    intro c mem
    obtain ⟨source, found, rfl⟩ := List.mem_map.mp mem
    have isLetter : Base64.isLetter (urlLetter source) = true := by
      rw [isLetter_urlLetter]
      exact all source found
    exact decide_eq_true (Base64.ne_padding_of_isLetter isLetter)
  have dropped : ((List.replicate padding '=').map urlLetter).filter
      (fun c => decide (c ≠ '=')) = [] := by
    refine List.filter_eq_nil_iff.mpr ?_
    intro c mem
    rw [List.map_replicate] at mem
    rw [List.eq_of_mem_replicate mem]
    decide
  rw [List.map_append, List.filter_append, kept, dropped, List.append_nil]

theorem decodeEpk_encodeUnpaddedUrl (bytes : List UInt8) :
    decodeEpk (encodeUnpaddedUrl bytes) = some bytes := by
  obtain ⟨letters, padding, text, all, padded, decodes⟩ := Base64.exists_encodeChars bytes
  have lettersUrl : ∀ c ∈ letters.map urlLetter, Base64.isLetter c = true := by
    intro c mem
    obtain ⟨source, found, rfl⟩ := List.mem_map.mp mem
    rw [isLetter_urlLetter]
    exact all source found
  have chars : (encodeUnpaddedUrl bytes).toList = letters.map urlLetter := by
    rw [encodeUnpaddedUrl, String.toList_ofList, text, encodeUnpaddedUrl_letters padding all]
  have paddedUrl : Base64.Padded (Base64.digitsOf (letters.map urlLetter)) padding := by
    rw [digitsOf_map_urlLetter]
    exact padded
  simp only [decodeEpk, chars]
  rw [← (padding_of_padded lettersUrl paddedUrl).1, decodeStrict_letters lettersUrl paddedUrl,
    digitsOf_map_urlLetter, decodes]

theorem decodeEpk_encode (bytes : List UInt8) : decodeEpk (Base64.encode bytes) = some bytes := by
  obtain ⟨letters, padding, text, all, padded, decodes⟩ := Base64.exists_encodeChars bytes
  have chars : (Base64.encode bytes).toList = letters ++ List.replicate padding '=' := by
    rw [Base64.encode, String.toList_ofList, text]
  -- whole groups need no more padding
  have whole : (4 - (letters ++ List.replicate padding '=').length % 4) % 4 = 0 := by
    rw [List.length_append, List.length_replicate, (padding_of_padded all padded).2]
  simp only [decodeEpk, chars, whole]
  rw [List.replicate_zero, List.append_nil, decodeStrict_letters all padded, decodes]

/-- The empty text is read like any other. -/
theorem toStandardB64_eq (b64 : String) :
    toStandardB64 b64 = ((decodeEpk b64).map Base64.encode).getD b64 := by
  rw [toStandardB64]
  split
  · next empty =>
    rw [String.isEmpty_iff] at empty
    subst empty
    rfl
  · cases decodeEpk b64 <;> rfl

theorem toAppEpk_eq (b64 : String) :
    toAppEpk b64 = ((decodeEpk b64).map encodeUnpaddedUrl).getD b64 := by
  rw [toAppEpk]
  split
  · next empty =>
    rw [String.isEmpty_iff] at empty
    subst empty
    rfl
  · cases decodeEpk b64 <;> rfl

/-- The standard spelling says what the app spells. -/
theorem toAppEpk_toStandardB64 (b64 : String) : toAppEpk (toStandardB64 b64) = toAppEpk b64 := by
  rw [toStandardB64_eq, toAppEpk_eq b64]
  cases decoded : decodeEpk b64 with
  | none =>
    rw [Option.map_none, Option.getD_none, toAppEpk_eq, decoded, Option.map_none]
  | some bytes =>
    rw [Option.map_some, Option.getD_some, toAppEpk_eq, decodeEpk_encode]
    rfl

/-- The spelling of the app says what the relay spells. -/
theorem toStandardB64_toAppEpk (b64 : String) :
    toStandardB64 (toAppEpk b64) = toStandardB64 b64 := by
  rw [toAppEpk_eq, toStandardB64_eq b64]
  cases decoded : decodeEpk b64 with
  | none =>
    rw [Option.map_none, Option.getD_none, toStandardB64_eq, decoded, Option.map_none]
  | some bytes =>
    rw [Option.map_some, Option.getD_some, toStandardB64_eq, decodeEpk_encodeUnpaddedUrl]
    rfl

/-- Two texts are one key to the relay exactly when they are one key to the app. -/
theorem toAppEpk_eq_iff {a b : String} :
    toAppEpk a = toAppEpk b ↔ toStandardB64 a = toStandardB64 b := by
  constructor
  · intro same
    rw [← toStandardB64_toAppEpk a, same, toStandardB64_toAppEpk]
  · intro same
    rw [← toAppEpk_toStandardB64 a, same, toAppEpk_toStandardB64]

/-- A key in both alphabets, with and without padding. -/
example : toStandardB64 "-_8" = "+/8=" ∧ toAppEpk "+/8=" = "-_8" ∧ toAppEpk "AA%3D%3D" = "AA" := by
  decide +kernel

end OutpostPi.App
